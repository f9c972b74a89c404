import SeriesBlock.Postings

/-!
# Moves of a cursor

A run of a cursor is any sequence of moves and looks (`Move`, `after`). One move keeps the list, never takes
the cursor back and never past the end (`follows_moveBy`), so neither does a run (`follows_after`). At the
end every move is refused and leaves the cursor there (`AtEnd`). Draining is taking the next reference until
there is none (`Drains`); what it takes is what is ahead of the cursor (`drains_iff`).

The main statement is `runs_lose_nothing`. No move but `seek` compares references, and what is said here of
`seek` does not depend on their order.
-/

set_option autoImplicit false

namespace SeriesBlock.Postings

/-- What is asked of a cursor: a move, or a look that leaves it where it is. -/
inductive Move where
  | advance
  | next
  | seek (x : SeriesRef)
  | current
  | length
  | bounds
deriving DecidableEq, Repr

/-- The postings after one move. -/
def moveBy (p : Postings) : Move → Postings
  | .advance => p.advance.2
  | .next => p.next.2
  | .seek x => (p.seek x).2
  | .current => p
  | .length => p
  | .bounds => p

/-- The postings after a run of moves. -/
def after (p : Postings) (moves : List Move) : Postings :=
  moves.foldl moveBy p

/-- What is known beforehand of how many references are to come, at least and at most. -/
def bounds (p : Postings) : Nat × Option Nat :=
  (p.left, some p.left)

/-- The cursor does not stand past the end. -/
def Within (p : Postings) : Prop :=
  ∀ c, p.cursor = some c → c ≤ p.refs.length

/-- The cursor stands at the end. -/
def AtEnd (p : Postings) : Prop :=
  p.cursor = some p.refs.length

/-- Taking the next reference until there is none. -/
inductive Drains : Postings → List SeriesRef → Postings → Prop where
  | done {p q : Postings} : p.next = (none, q) → Drains p [] q
  | more {p q r : Postings} {v : SeriesRef} {items : List SeriesRef} :
      p.next = (some v, q) → Drains q items r → Drains p (v :: items) r

section Steps

variable (p : Postings)

theorem ahead_le : p.ahead ≤ p.refs.length := by
  unfold ahead
  split
  · exact Nat.zero_le _
  · exact Nat.min_le_right _ _

/-- The next reference is the one ahead, and the cursor moves onto it or to the end. -/
theorem next_eq : p.next = (p.refs[p.ahead]?, p.advance.2) := by
  unfold next advance
  by_cases h : p.ahead < p.refs.length
  · simp [h, current?]
  · simp [h]

theorem advance_fst_eq_isSome_next : p.advance.1 = p.next.1.isSome := by
  rw [next_eq]
  by_cases h : p.ahead < p.refs.length
  · simp [advance, h]
  · simp [advance, h]

/-- Past the one ahead is the one after it. -/
theorem ahead_advance (h : p.ahead < p.refs.length) : p.advance.2.ahead = p.ahead + 1 :=
  Nat.min_eq_left h

/-- The place that halving finds lies between the bounds, whatever the order of the references. -/
theorem lowerBound_bounds (refs : List SeriesRef) (x : SeriesRef) {low high : Nat} (h : low ≤ high) :
    low ≤ lowerBound refs x low high ∧ lowerBound refs x low high ≤ high := by
  induction low, high using lowerBound.induct refs x with
  | case1 low high hlt middle r hr hless ih =>
      rw [lowerBound, if_pos hlt]
      simp only [middle] at hr ih
      simp only [hr, if_pos hless]
      have := ih (by omega)
      omega
  | case2 low high hlt middle r hr hless ih =>
      rw [lowerBound, if_pos hlt]
      simp only [middle] at hr ih
      simp only [hr, if_neg hless]
      have := ih (by omega)
      omega
  | case3 low high hlt middle hnone =>
      rw [lowerBound, if_pos hlt]
      simp only [middle] at hnone
      simp only [hnone]
      omega
  | case4 low high hlt =>
      rw [lowerBound, if_neg hlt]
      omega

/-- **A search stays, or goes to a place ahead.** -/
theorem seek_cases (x : SeriesRef) :
    (∃ r, p.current? = some r ∧ x ≤ r ∧ p.seek x = (true, p)) ∨
      (∀ r, p.current? = some r → ¬ x ≤ r) ∧
        ∃ found, found = lowerBound p.refs x p.ahead p.refs.length ∧ p.ahead ≤ found ∧
          found ≤ p.refs.length ∧
          p.seek x = (decide (found < p.refs.length), { p with cursor := some found }) := by
  have hbounds := lowerBound_bounds p.refs x p.ahead_le
  unfold seek
  cases hc : p.current? with
  | none =>
      right
      exact ⟨nofun, _, rfl, hbounds.1, hbounds.2, by simp⟩
  | some r =>
      by_cases hr : x ≤ r
      · left
        exact ⟨r, rfl, hr, by simp [hr]⟩
      · right
        refine ⟨?_, _, rfl, hbounds.1, hbounds.2, by simp [hr]⟩
        rintro r' ⟨⟩
        exact hr

end Steps

/-! ## The cursor never goes back -/

/-- Postings that may come after others: of the same list, with a cursor that is no earlier and not past
the end. -/
structure Follows (p q : Postings) : Prop where
  refs_eq : q.refs = p.refs
  cursor_le : p.cursor ≤ q.cursor
  within : q.Within

section Follows

variable {p q r : Postings}

theorem Follows.refl (h : p.Within) : Follows p p := by
  refine ⟨rfl, ?_, h⟩
  cases p.cursor with
  | none => exact Option.none_le
  | some c => exact Option.some_le_some.2 (Nat.le_refl c)

theorem Follows.trans (h : Follows p q) (h' : Follows q r) : Follows p r := by
  refine ⟨h'.refs_eq.trans h.refs_eq, ?_, h'.within⟩
  have hpq := h.cursor_le
  have hqr := h'.cursor_le
  cases hp : p.cursor with
  | none => exact Option.none_le
  | some c =>
      cases hq : q.cursor with
      | none => simp [hp, hq] at hpq
      | some d =>
          cases hr : r.cursor with
          | none => simp [hq, hr] at hqr
          | some e =>
              simp only [hp, hq, hr, Option.some_le_some] at hpq hqr ⊢
              exact Nat.le_trans hpq hqr

/-- Every place from the one ahead on follows. -/
theorem follows_of_ahead_le (h : p.Within) {place : Nat} (hlow : p.ahead ≤ place)
    (hhigh : place ≤ p.refs.length) : Follows p { p with cursor := some place } := by
  refine ⟨rfl, ?_, ?_⟩
  · cases hc : p.cursor with
    | none => exact Option.none_le
    | some c =>
        have hle := h c hc
        simp only [ahead, hc] at hlow
        exact Option.some_le_some.2 (by omega)
  · rintro c ⟨⟩
    exact hhigh

theorem follows_advance (h : p.Within) : Follows p p.advance.2 :=
  follows_of_ahead_le h (Nat.le_refl _) p.ahead_le

theorem follows_seek (h : p.Within) (x : SeriesRef) : Follows p (p.seek x).2 := by
  rcases p.seek_cases x with ⟨r, -, -, hs⟩ | ⟨-, found, -, hlow, hhigh, hs⟩
  · rw [hs]
    exact .refl h
  · rw [hs]
    exact follows_of_ahead_le h hlow hhigh

/-- **One move keeps the list and never takes the cursor back.** -/
theorem follows_moveBy (h : p.Within) (move : Move) : Follows p (p.moveBy move) := by
  cases move with
  | advance => exact follows_advance h
  | next =>
      rw [moveBy, next_eq]
      exact follows_advance h
  | seek x => exact follows_seek h x
  | current => exact .refl h
  | length => exact .refl h
  | bounds => exact .refl h

/-- **Nor does a run of moves.** -/
theorem follows_after (h : p.Within) (moves : List Move) : Follows p (p.after moves) := by
  induction moves generalizing p with
  | nil => exact .refl h
  | cons move moves ih =>
      have hstep := follows_moveBy h move
      exact hstep.trans (ih hstep.within)

theorem within_ofList (refs : List SeriesRef) : (ofList refs).Within := by
  intro c hc
  cases hc

end Follows

/-! ## The end -/

section AtEnd

variable {p : Postings}

theorem atEnd_of_advance (h : p.advance.1 = false) : p.advance.2.AtEnd := by
  have hle := p.ahead_le
  simp only [advance, decide_eq_false_iff_not] at h
  simp only [AtEnd, advance, Option.some.injEq]
  omega

theorem atEnd_of_next (h : p.next.1 = none) : p.next.2.AtEnd := by
  have hrefused : p.advance.1 = false := by simp [advance_fst_eq_isSome_next, h]
  rw [next_eq]
  exact atEnd_of_advance hrefused

theorem atEnd_of_seek {x : SeriesRef} (h : (p.seek x).1 = false) : (p.seek x).2.AtEnd := by
  rcases p.seek_cases x with ⟨r, -, -, hs⟩ | ⟨-, found, -, -, hhigh, hs⟩
  · simp [hs] at h
  · simp only [hs, decide_eq_false_iff_not] at h
    simp only [hs, AtEnd, Option.some.injEq]
    omega

theorem AtEnd.current?_eq (h : p.AtEnd) : p.current? = none := by
  simp [current?, show p.cursor = some p.refs.length from h]

theorem AtEnd.ahead_eq (h : p.AtEnd) : p.ahead = p.refs.length := by
  simp [ahead, show p.cursor = some p.refs.length from h]

theorem AtEnd.advance_eq (h : p.AtEnd) : p.advance = (false, p) := by
  have hcursor : some p.refs.length = p.cursor := h.symm
  simp [advance, h.ahead_eq, hcursor]

theorem AtEnd.next_eq (h : p.AtEnd) : p.next = (none, p) := by
  rw [Postings.next_eq, h.advance_eq, h.ahead_eq]
  simp

theorem AtEnd.seek_eq (h : p.AtEnd) (x : SeriesRef) : p.seek x = (false, p) := by
  rcases p.seek_cases x with ⟨r, hr, -, -⟩ | ⟨-, found, -, hlow, hhigh, hs⟩
  · simp [h.current?_eq] at hr
  · have hfound : found = p.refs.length := Nat.le_antisymm hhigh (h.ahead_eq ▸ hlow)
    have hcursor : some p.refs.length = p.cursor := h.symm
    simp [hs, hfound, hcursor]

/-- **At the end no move leads anywhere else.** -/
theorem AtEnd.moveBy_eq (h : p.AtEnd) (move : Move) : p.moveBy move = p := by
  cases move with
  | advance => rw [moveBy, h.advance_eq]
  | next => rw [moveBy, h.next_eq]
  | seek x => rw [moveBy, h.seek_eq]
  | current => rfl
  | length => rfl
  | bounds => rfl

theorem AtEnd.after_eq (h : p.AtEnd) (moves : List Move) : p.after moves = p := by
  induction moves with
  | nil => rfl
  | cons move moves ih =>
      rw [after, List.foldl_cons, h.moveBy_eq move]
      exact ih

end AtEnd

/-! ## Draining -/

section Drains

variable {p q : Postings} {v : SeriesRef} {items : List SeriesRef}

theorem drain_of_next_none (h : p.next = (none, q)) : p.drain = ([], q) := by
  rw [next_eq, Prod.mk.injEq, List.getElem?_eq_none_iff] at h
  obtain ⟨hle, rfl⟩ := h
  simp [drain, advance, Nat.le_antisymm p.ahead_le hle]

/-- The next reference is the first of those ahead. -/
theorem drain_of_next_some (h : p.next = (some v, q)) :
    p.drain = (v :: q.drain.1, q.drain.2) ∧ p.left = q.left + 1 := by
  rw [next_eq, Prod.mk.injEq, List.getElem?_eq_some_iff] at h
  obtain ⟨⟨hlt, rfl⟩, rfl⟩ := h
  have hahead := p.ahead_advance hlt
  constructor
  · rw [drain, drain, hahead, List.drop_eq_getElem_cons hlt]
    rfl
  · show p.refs.length - p.ahead = p.refs.length - p.advance.2.ahead + 1
    omega

/-- **Draining takes what is ahead of the cursor**, in stored order, and leaves it at the end. -/
theorem drains_iff : Drains p items q ↔ p.drain = (items, q) := by
  constructor
  · intro h
    induction h with
    | done hnone => exact drain_of_next_none hnone
    | more hsome hmore ih => rw [(drain_of_next_some hsome).1, ih]
  · intro h
    -- on how many references are ahead
    induction hn : p.left using Nat.strongRecOn generalizing p items with
    | ind n ih =>
        rcases hp : p.next with ⟨_ | v, r⟩
        · rw [drain_of_next_none hp, Prod.mk.injEq] at h
          obtain ⟨rfl, rfl⟩ := h
          exact .done hp
        · obtain ⟨hdrain, hleft⟩ := drain_of_next_some hp
          rw [hdrain, Prod.mk.injEq] at h
          obtain ⟨rfl, rfl⟩ := h
          exact .more hp (ih r.left (by omega) rfl rfl)

end Drains

/-- **Runs of a cursor lose and repeat nothing.** Whatever is asked of a cursor before and afterwards, it
never goes back and never past the end. The next reference is given exactly where advancing finds one, and is
then the current one. A refused move leaves the cursor at the end, and there all later ones are refused. The
bounds of what is to come are exact: draining takes as many references, the last of the list in stored order.
The list stays as it was. -/
theorem runs_lose_nothing (refs : List SeriesRef) (before later : List Move) :
    let p := (ofList refs).after before
    let q := p.after later
    (p.cursor ≤ q.cursor ∧ ∀ c, q.cursor = some c → c ≤ refs.length) ∧
    (q.advance.1 = q.next.1.isSome ∧ q.next = (q.advance.2.current?, q.advance.2)) ∧
    ((p.advance.1 = false → p.advance.2.AtEnd) ∧ (p.next.1 = none → p.next.2.AtEnd) ∧
      ∀ x, (p.seek x).1 = false → (p.seek x).2.AtEnd) ∧
    (p.AtEnd → q = p ∧ q.advance.1 = false ∧ q.next.1 = none ∧ (∀ x, (q.seek x).1 = false) ∧
      q.current? = none) ∧
    (∃ items, (∀ taken r, Drains q taken r ↔ taken = items ∧ r = { q with cursor := some refs.length }) ∧
      q.bounds = (items.length, some items.length) ∧ items <:+ refs) ∧
    q.length = refs.length ∧ q.toList = refs := by
  intro p q
  have hp : Follows (ofList refs) p := follows_after (within_ofList refs) before
  have hq : Follows p q := follows_after hp.within later
  have hrefs : q.refs = refs := hq.refs_eq.trans hp.refs_eq
  refine ⟨⟨hq.cursor_le, fun c hc => hrefs ▸ hq.within c hc⟩, ?_, ?_, ?_, ?_, ?_, hrefs⟩
  · refine ⟨advance_fst_eq_isSome_next q, ?_⟩
    rw [next_eq]
    rfl
  · exact ⟨atEnd_of_advance, atEnd_of_next, fun _ => atEnd_of_seek⟩
  · intro hend
    have heq : q = p := hend.after_eq later
    rw [heq, hend.advance_eq, hend.next_eq]
    exact ⟨rfl, rfl, rfl, fun x => by rw [hend.seek_eq], hend.current?_eq⟩
  · refine ⟨refs.drop q.ahead, ?_, ?_, List.drop_suffix _ _⟩
    · intro taken r
      rw [drains_iff, drain, hrefs, Prod.mk.injEq]
      exact and_congr eq_comm eq_comm
    · rw [bounds, left, List.length_drop, hrefs]
  · rw [length, hrefs]

/-- A cursor with two references ahead of it, and one that has come to the end. -/
theorem runs_lose_nothing_twoAhead :
    let p := (ofList [3, 1, 4, 1]).after [.advance, .current, .next, .bounds]
    let e := (ofList [3, 7]).after [.seek 7, .next]
    (∃ items, (∀ taken r, Drains p taken r ↔ taken = items ∧ r = { p with cursor := some 4 }) ∧
      p.bounds = (items.length, some items.length) ∧ items <:+ [3, 1, 4, 1]) ∧
    e.AtEnd ∧ (e.after [.next, .seek 0, .length]).current? = none := by
  intro p e
  obtain ⟨-, -, -, -, hdrains, -⟩ :=
    runs_lose_nothing [3, 1, 4, 1] [] [.advance, .current, .next, .bounds]
  obtain ⟨-, -, -, hend, -⟩ := runs_lose_nothing [3, 7] [.seek 7, .next] [.next, .seek 0, .length]
  have he : e.AtEnd := by
    apply atEnd_of_next
    decide +kernel
  exact ⟨hdrains, he, (hend he).2.2.2.2⟩

end SeriesBlock.Postings
