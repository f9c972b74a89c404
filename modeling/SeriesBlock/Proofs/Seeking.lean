import SeriesBlock.Proofs.Moves

/-!
# Seeking

`seek` halves what is ahead of the cursor. The loop it stands for (`scan`) looks at one reference after the
other. Both are measured against the place they should come to: the first reference from the cursor on that
is at least the one sought (`StopsAt`). There is one such place (`StopsAt.unique`). The loop comes to it on
every list (`stopsAt_scan`), halving on ascending ones (`stopsAt_seek`).
-/

set_option autoImplicit false

namespace SeriesBlock.Postings

theorem left_lt_of_advance {p : Postings} (h : p.advance.1 = true) : p.advance.2.left < p.left := by
  have hlt : p.ahead < p.refs.length := of_decide_eq_true h
  have hahead := p.ahead_advance hlt
  show p.refs.length - p.advance.2.ahead < p.refs.length - p.ahead
  omega

/-- Stays where the current reference is at least `x`, otherwise advances and looks again, until advancing is
refused. -/
def scan (p : Postings) (x : SeriesRef) : Bool × Postings :=
  if p.current?.any (x ≤ ·) then (true, p)
  else if p.advance.1 then p.advance.2.scan x
  else (false, p.advance.2)
  termination_by p.left
  decreasing_by exact left_lt_of_advance ‹_›

/-- `stop` is the position, from `start` on, of the first reference that is at least `x`, or the length where
there is none. -/
structure FirstAtLeast (refs : List SeriesRef) (x : SeriesRef) (start stop : Nat) : Prop where
  start_le : start ≤ stop
  stop_le : stop ≤ refs.length
  below : ∀ i r, start ≤ i → i < stop → refs[i]? = some r → r < x
  reached : ∀ r, refs[stop]? = some r → x ≤ r

/-- Moving to the first reference, from the cursor on, that is at least `x`, with a report whether there is
one. -/
def StopsAt (p : Postings) (x : SeriesRef) (result : Bool × Postings) : Prop :=
  ∃ stop, FirstAtLeast p.refs x (p.cursor.getD 0) stop ∧
    result = (decide (stop < p.refs.length), { p with cursor := some stop })

section FirstAtLeast

variable {refs : List SeriesRef} {x : SeriesRef} {start stop stop' : Nat}

/-- Of two such positions neither comes before the other. -/
theorem FirstAtLeast.le (h : FirstAtLeast refs x start stop) (h' : FirstAtLeast refs x start stop') :
    stop' ≤ stop := by
  apply Nat.le_of_not_lt
  intro hlt
  have hlength : stop < refs.length := Nat.lt_of_lt_of_le hlt h'.stop_le
  have hr : refs[stop]? = some refs[stop] := List.getElem?_eq_getElem hlength
  have hless := h'.below stop _ h.start_le hlt hr
  exact UInt32.not_le.2 hless (h.reached _ hr)

theorem FirstAtLeast.unique (h : FirstAtLeast refs x start stop)
    (h' : FirstAtLeast refs x start stop') : stop = stop' :=
  Nat.le_antisymm (h'.le h) (h.le h')

/-- A reference that is large enough is the first from its own position on. -/
theorem FirstAtLeast.refl (hlength : start ≤ refs.length) (hreached : ∀ r, refs[start]? = some r → x ≤ r) :
    FirstAtLeast refs x start start :=
  ⟨Nat.le_refl _, hlength, fun _ _ hi hlt => absurd hi (Nat.not_le_of_lt hlt), hreached⟩

/-- The search may begin earlier if what it passes then is below `x`. -/
theorem FirstAtLeast.mono {start' : Nat} (h : FirstAtLeast refs x start stop) (hle : start' ≤ start)
    (hbelow : ∀ i r, start' ≤ i → i < start → refs[i]? = some r → r < x) :
    FirstAtLeast refs x start' stop := by
  refine ⟨Nat.le_trans hle h.start_le, h.stop_le, ?_, h.reached⟩
  intro i r hi hstop hr
  by_cases hstart : i < start
  · exact hbelow i r hi hstart hr
  · exact h.below i r (Nat.le_of_not_lt hstart) hstop hr

theorem le_of_ascending (hasc : refs.Pairwise (· ≤ ·)) {i j : Nat} {r s : SeriesRef} (hij : i ≤ j)
    (hr : refs[i]? = some r) (hs : refs[j]? = some s) : r ≤ s := by
  obtain ⟨hi, rfl⟩ := List.getElem?_eq_some_iff.1 hr
  obtain ⟨hj, rfl⟩ := List.getElem?_eq_some_iff.1 hs
  rcases Nat.lt_or_eq_of_le hij with hlt | rfl
  · exact List.pairwise_iff_getElem.1 hasc i j hi hj hlt
  · exact UInt32.le_refl _

/-- **Halving finds the first reference that is large enough**, from `low` on, if the one at `high` is large
enough or there is none. -/
theorem firstAtLeast_lowerBound (hasc : refs.Pairwise (· ≤ ·)) {low high : Nat} (hle : low ≤ high)
    (hlength : high ≤ refs.length) (hhigh : ∀ r, refs[high]? = some r → x ≤ r) :
    FirstAtLeast refs x low (lowerBound refs x low high) := by
  induction low, high using lowerBound.induct refs x with
  | case1 low high hlt middle r hr hless ih =>
      have hfirst := ih (by omega) hlength hhigh
      rw [lowerBound, if_pos hlt]
      simp only [middle] at hr hfirst
      simp only [hr, if_pos hless]
      apply hfirst.mono (by omega)
      intro i s _ hi hs
      have hsr := le_of_ascending hasc (Nat.le_of_lt_succ hi) hs hr
      exact UInt32.lt_of_le_of_lt hsr hless
  | case2 low high hlt middle r hr hless ih =>
      have hreached : ∀ s, refs[middle]? = some s → x ≤ s := by
        intro s hs
        cases hr.symm.trans hs
        exact UInt32.not_lt.1 hless
      have hfirst := ih (by omega) (by omega) hreached
      rw [lowerBound, if_pos hlt]
      simp only [middle] at hr hfirst
      simp only [hr, if_neg hless]
      exact hfirst
  | case3 low high hlt middle hnone =>
      rw [List.getElem?_eq_none_iff] at hnone
      omega
  | case4 low high hnot =>
      obtain rfl : low = high := by omega
      rw [lowerBound, if_neg hnot]
      exact .refl hlength hhigh

end FirstAtLeast

section StopsAt

variable {p : Postings} {x : SeriesRef}

theorem StopsAt.unique {result result' : Bool × Postings} (h : p.StopsAt x result)
    (h' : p.StopsAt x result') : result = result' := by
  obtain ⟨stop, hfirst, rfl⟩ := h
  obtain ⟨stop', hfirst', rfl⟩ := h'
  rw [hfirst.unique hfirst']

theorem not_le_of_not_any (h : ¬ p.current?.any (x ≤ ·) = true) : ∀ r, p.current? = some r → ¬ x ≤ r := by
  intro r hr hx
  apply h
  simp [hr, hx]

/-- A current reference that is large enough is the first. -/
theorem stopsAt_current {r : SeriesRef} (hr : p.current? = some r) (hx : x ≤ r) :
    p.StopsAt x (true, p) := by
  obtain ⟨c, hc, hget⟩ := Option.bind_eq_some_iff.1 hr
  have hlt := (List.getElem?_eq_some_iff.1 hget).1
  refine ⟨c, ?_, ?_⟩
  · rw [hc, Option.getD_some]
    apply FirstAtLeast.refl (Nat.le_of_lt hlt)
    intro s hs
    cases hget.symm.trans hs
    exact hx
  · simp [hlt, ← hc]

/-- Where the current reference is not large enough, the first is ahead. -/
theorem stopsAt_of_ahead (hwithin : p.Within) (hless : ∀ r, p.current? = some r → ¬ x ≤ r) {stop : Nat}
    (hfirst : FirstAtLeast p.refs x p.ahead stop) :
    p.StopsAt x (decide (stop < p.refs.length), { p with cursor := some stop }) := by
  refine ⟨stop, ?_, rfl⟩
  cases hc : p.cursor with
  | none =>
      simpa [ahead, hc] using hfirst
  | some c =>
      have hle := hwithin c hc
      simp only [ahead, hc] at hfirst
      apply hfirst.mono
      · show c ≤ min (c + 1) p.refs.length
        omega
      · intro i r hi hlt hr
        simp only [Option.getD_some] at hi
        -- only the current reference lies between
        obtain rfl : i = c := by omega
        apply UInt32.not_le.1
        apply hless r
        simp [current?, hc, hr]

/-- **The loop stops at the first reference that is large enough**, whatever the order. -/
theorem stopsAt_scan (hwithin : p.Within) : p.StopsAt x (p.scan x) := by
  induction p using scan.induct x with
  | case1 p hany =>
      rw [scan, if_pos hany]
      rw [Option.any_eq_true] at hany
      obtain ⟨r, hr, hx⟩ := hany
      exact stopsAt_current hr (of_decide_eq_true hx)
  | case2 p hany hadv ih =>
      rw [scan, if_neg hany, if_pos hadv]
      obtain ⟨stop, hfirst, hscan⟩ := ih (follows_advance hwithin).within
      rw [hscan]
      exact stopsAt_of_ahead hwithin (not_le_of_not_any hany) hfirst
  | case3 p hany hadv =>
      rw [scan, if_neg hany, if_neg hadv]
      have hend : p.ahead = p.refs.length :=
        Option.some.inj (atEnd_of_advance (Bool.eq_false_iff.2 hadv))
      have hfirst : FirstAtLeast p.refs x p.ahead p.ahead := by
        apply FirstAtLeast.refl p.ahead_le
        simp [hend]
      have hstop := stopsAt_of_ahead hwithin (not_le_of_not_any hany) hfirst
      simpa [advance, hend] using hstop

/-- **On an ascending list so does halving.** -/
theorem stopsAt_seek (hwithin : p.Within) (hasc : p.refs.Pairwise (· ≤ ·)) :
    p.StopsAt x (p.seek x) := by
  rcases p.seek_cases x with ⟨r, hr, hx, hs⟩ | ⟨hless, found, rfl, -, -, hs⟩
  · rw [hs]
    exact stopsAt_current hr hx
  · rw [hs]
    apply stopsAt_of_ahead hwithin hless
    apply firstAtLeast_lowerBound hasc p.ahead_le (Nat.le_refl _)
    simp

end StopsAt

/-- **Seeking is the plain scan.** On an ascending list, whatever was asked of the cursor before, `seek`
reports what the loop reports and leaves the cursor where the loop leaves it: at the first reference from the
cursor on that is at least the one sought, or at the end where there is none. -/
theorem seek_eq_scan (refs : List SeriesRef) (hasc : refs.Pairwise (· ≤ ·)) (moves : List Move)
    (x : SeriesRef) :
    let p := (ofList refs).after moves
    p.seek x = p.scan x ∧
      ∃ stop, FirstAtLeast refs x (p.cursor.getD 0) stop ∧
        p.seek x = (decide (stop < refs.length), { refs, cursor := some stop }) := by
  intro p
  have hp : Follows (ofList refs) p := follows_after (within_ofList refs) moves
  have hrefs : p.refs = refs := hp.refs_eq
  have hseek : p.StopsAt x (p.seek x) := stopsAt_seek hp.within (hrefs ▸ hasc)
  refine ⟨hseek.unique (stopsAt_scan hp.within), ?_⟩
  rw [StopsAt, hrefs] at hseek
  exact hseek

/-- A search among equal references that starts on one of them. -/
theorem seek_eq_scan_duplicates :
    let refs : List SeriesRef := [2, 4, 4, 4, 9]
    let p := (ofList refs).after [.seek 3, .next]
    refs.Pairwise (· ≤ ·) ∧ p.cursor = some 2 ∧ p.seek 4 = p.scan 4 ∧
      ∃ stop, FirstAtLeast refs 5 (p.cursor.getD 0) stop ∧
        p.seek 5 = (decide (stop < refs.length), { refs, cursor := some stop }) := by
  intro refs p
  have hasc : refs.Pairwise (· ≤ ·) := by decide
  have hcursor : p.cursor = some 2 := by decide +kernel
  obtain ⟨hscan, -⟩ := seek_eq_scan refs hasc [.seek 3, .next] 4
  obtain ⟨-, hstop⟩ := seek_eq_scan refs hasc [.seek 3, .next] 5
  exact ⟨hasc, hcursor, hscan, hstop⟩

/-- Where references do not ascend, halving may pass one that the loop stops at. -/
example : ((ofList [5, 1, 1]).seek 5).1 = false ∧ ((ofList [5, 1, 1]).scan 5).1 = true := by
  decide +kernel

end SeriesBlock.Postings
