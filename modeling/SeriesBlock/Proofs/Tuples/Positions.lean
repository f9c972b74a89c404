import SeriesBlock.Proofs.Machine.InMemory
import SeriesBlock.Proofs.Tuples.Sorting
import SeriesBlock.Proofs.Tuples.Windows
import SeriesBlock.Tuples

/-!
# Positions in and outside the list

Windows are addressed by string and tuples by number, with any position of 64 bits. A window is given exactly if
it ends in the list (`get?_eq_some_iff`), a tuple exactly if there are more than its number
(`tuple?_eq_some_iff`), and its window begins at the product of number and arity, which then fits
(`get?_start`).

What becomes of the other numbers depends on the arithmetic. Where sums and products of 64 bits are checked, the
machine traps, at the latest by the slice (`Machine.tuple`). Where they are not, the tuple is the window at the
reduced product (`reducedTuple?_eq_get?`): the run traps exactly if this window leaves the list, so a number that is
far too large may lead back into it (`tuple_beyond_the_end`).

Comparing and exchanging go string by string. Exchanging reaches every place of both windows, so it fails exactly
if one of them leaves the list (`swap?_eq_none_iff`). Comparing stops at the first strings that differ: it fails
exactly if the windows agree up to a place outside (`less?_eq_none_iff`).

The main statements are `positions_are_exact` and `comparing_fails_on_agreement`.
-/

set_option autoImplicit false

namespace SeriesBlock.InMemoryTuples

/-! ## Windows and tuples -/

/-- The tuple with a number, with sums and products of 64 bits that are not checked. -/
def reducedTuple? (t : InMemoryTuples) (i : UInt64) : Option (List String) :=
  slice? t.strings (i * t.arity).toNat ((i + 1) * t.arity).toNat

/-- All tuples in order, each by its number, in the same arithmetic. -/
def reducedTuples? (t : InMemoryTuples) : Option (List (List String)) :=
  (List.range t.length).mapM fun n => t.reducedTuple? (UInt64.ofNat n)

section Positions

variable {t : InMemoryTuples} {i : UInt64} {w : List String}

/-- A window is read if it lies in the list. -/
theorem get?_eq : t.get? i = if t.InRange i then some (t.window i.toNat) else none := by
  by_cases h : t.InRange i
  · rw [if_pos h, t.get?_of_inRange h]
  · rw [if_neg h, get?, slice?, if_neg fun hin => h hin.2]

theorem get?_eq_none_iff : t.get? i = none ↔ ¬ t.InRange i := by
  simp [get?_eq]

theorem get?_eq_some_iff : t.get? i = some w ↔ t.InRange i ∧ w = t.window i.toNat := by
  rw [get?_eq, Option.ite_none_right_eq_some, Option.some.injEq, eq_comm (b := w)]

theorem tuple?_eq_some_iff :
    t.tuple? i = some w ↔ i.toNat < t.length ∧ w = t.window (i.toNat * t.width) := by
  rw [t.tuple?_eq, getElem?_toList, Option.ite_none_right_eq_some, Option.some.injEq, eq_comm (b := w)]

theorem tuple?_eq_none_iff : t.tuple? i = none ↔ t.length ≤ i.toNat := by
  rw [t.tuple?_eq, List.getElem?_eq_none_iff, length_toList]

/-- The product of the words is where the tuple begins, reduced as it is. -/
theorem mul_arity (t : InMemoryTuples) (i : UInt64) : i * t.arity = t.start i.toNat := by
  apply UInt64.toNat_inj.1
  rw [UInt64.toNat_mul]
  rfl

/-- A tuple is the window at the product of its number and the arity. -/
theorem get?_start (hn : t.strings.length < 2 ^ 64) (h : i.toNat < t.length) :
    t.get? (t.start i.toNat) = t.tuple? i := by
  rw [t.get?_of_inRange (inRange_start hn h), toNat_start hn h]
  exact (tuple?_eq_some_iff.2 ⟨h, rfl⟩).symm

/-- **Without checks, a tuple is the window at the reduced product.** -/
theorem reducedTuple?_eq_get? (hn : t.strings.length < 2 ^ 64) : t.reducedTuple? i = t.get? (i * t.arity) := by
  have hstop : ((i + 1) * t.arity).toNat = ((i * t.arity).toNat + t.width) % 2 ^ 64 := by
    rw [UInt64.add_mul, UInt64.one_mul, UInt64.toNat_add]
    rfl
  have hstart : (i * t.arity).toNat < 2 ^ 64 := UInt64.toNat_lt _
  have hwidth : t.width < 2 ^ 64 := t.arity.toNat_lt
  rw [reducedTuple?, hstop, get?]
  by_cases hsum : (i * t.arity).toNat + t.width < 2 ^ 64
  · rw [Nat.mod_eq_of_lt hsum]
  -- the end is reduced to one in front of the start, and neither is the window in the list
  · rw [slice?, slice?, if_neg (by omega), if_neg (by omega)]

/-- **Of the tuples that are there** each is given, with checks or without. -/
theorem reducedTuple?_of_lt (hn : t.strings.length < 2 ^ 64) (h : i.toNat < t.length) :
    t.reducedTuple? i = some (t.window (i.toNat * t.width)) := by
  rw [reducedTuple?_eq_get? hn, mul_arity, get?_start hn h]
  exact tuple?_eq_some_iff.2 ⟨h, rfl⟩

/-- Products that fit are reduced to themselves. -/
theorem reducedTuple?_eq (hn : t.strings.length < 2 ^ 64) (h : i.toNat * t.width < 2 ^ 64) :
    t.reducedTuple? i = t.tuple? i := by
  have hstart : (i * t.arity).toNat = i.toNat * t.width := by
    rw [UInt64.toNat_mul]
    exact Nat.mod_eq_of_lt h
  rw [reducedTuple?_eq_get? hn, get?, hstart, tuple?, Nat.succ_mul]

/-- Walking through all tuples gives each. -/
theorem reducedTuples?_eq (hn : t.strings.length < 2 ^ 64) : t.reducedTuples? = some t.toList := by
  have hall : ∀ n ∈ List.range t.length,
      t.reducedTuple? (UInt64.ofNat n) = some ((t.strings.drop (n * t.width)).take t.width) := by
    intro n hmem
    have hlt : n < t.length := List.mem_range.1 hmem
    have hle : t.length ≤ t.strings.length := Nat.div_le_self _ _
    have hnat : (UInt64.ofNat n).toNat = n := UInt64.toNat_ofNat_of_lt' (show n < 2 ^ 64 by omega)
    rw [reducedTuple?_of_lt hn (hnat.symm ▸ hlt), hnat]
    rfl
  rw [reducedTuples?, toList]
  generalize List.range t.length = numbers at hall
  induction numbers with
  | nil => rfl
  | cons n numbers ih =>
      rw [List.mapM_cons, hall n List.mem_cons_self, ih fun m hm => hall m (List.mem_cons_of_mem n hm)]
      rfl

end Positions

/-- **Positions are exact.** At every position of 64 bits, a window is given exactly if it ends in the list, and is
what stands there. A tuple whose number is less than how many there are is the window at the product of its number
and the arity, which fits, and walking through all tuples gives each once, in order.

With sums and products that are not checked, a number gives the window at its reduced product with the arity: it
traps exactly if this window leaves the list, so that a number for which there is no tuple traps as long as the
product fits, and any other exactly if the reduced product does not lead back into the list. With sums and products
that are checked the run traps exactly if the tuple is not there. -/
theorem positions_are_exact (t : InMemoryTuples) (hn : t.strings.length < 2 ^ 64) (i : UInt64) :
    (∀ w, Machine.window t i = some w ↔
      i.toNat + t.arity.toNat ≤ t.strings.length ∧ w = t.window i.toNat) ∧
    (Machine.window t i = none ↔ t.strings.length < i.toNat + t.arity.toNat) ∧
    t.get? i = Machine.window t i ∧
    (∀ w, t.reducedTuple? i = some w ↔
      (i * t.arity).toNat + t.arity.toNat ≤ t.strings.length ∧ w = t.window (i * t.arity).toNat) ∧
    (t.reducedTuple? i = none ↔ t.strings.length < (i * t.arity).toNat + t.arity.toNat) ∧
    t.reducedTuple? i = Machine.window t (i * t.arity) ∧
    (i.toNat < t.length →
      (i * t.arity).toNat = i.toNat * t.arity.toNat ∧
      t.reducedTuple? i = some (t.window (i.toNat * t.arity.toNat)) ∧
      Machine.tuple t i = pure (t.window (i.toNat * t.arity.toNat))) ∧
    (i.toNat * t.arity.toNat < 2 ^ 64 → (t.reducedTuple? i = none ↔ t.length ≤ i.toNat)) ∧
    ((∃ trap, Machine.tuple t i = Machine.Run.trap trap) ↔ t.length ≤ i.toNat) ∧
    t.reducedTuples? = some t.toList ∧
    Machine.tuplesInMemory t = pure (Tuples.inMemory t).toList ∧
    (Tuples.inMemory t).toList = t.toList.map .ok ∧
    t.toList.length = t.length ∧
    ∀ k : Nat, t.toList[k]? = if k < t.length then some (t.window (k * t.arity.toNat)) else none := by
  have hreduced := reducedTuple?_eq_get? (i := i) hn
  refine ⟨fun w => ?_, ?_, (Machine.window_eq hn i).symm, fun w => ?_, ?_, ?_, fun hi => ⟨?_, ?_, ?_⟩,
    fun hfits => ?_, ?_, reducedTuples?_eq hn, Machine.tuplesInMemory_eq hn, rfl, length_toList t,
    getElem?_toList t⟩
  · rw [Machine.window_eq hn]
    exact get?_eq_some_iff
  · rw [Machine.window_eq hn, get?_eq_none_iff]
    exact Nat.not_le
  · rw [hreduced]
    exact get?_eq_some_iff
  · rw [hreduced, get?_eq_none_iff]
    exact Nat.not_le
  · rw [hreduced, Machine.window_eq hn]
  · rw [mul_arity]
    exact toNat_start hn hi
  · exact reducedTuple?_of_lt hn hi
  · exact (Machine.mirrors_tuple hn i).eq_pure_iff.2 (tuple?_eq_some_iff.2 ⟨hi, rfl⟩)
  · rw [reducedTuple?_eq hn hfits, tuple?_eq_none_iff]
  · rw [(Machine.mirrors_tuple hn i).trap_iff, tuple?_eq_none_iff]

/-- A position at which a window is no tuple, the last tuple, a number that is too large by one, and one so large that
its product with the arity is 0 again in 64 bits, which is where the first tuple begins. -/
theorem positions_are_exact_farOut :
    let t : InMemoryTuples := ⟨2, ["a", "b", "c", "d"], by decide, by decide⟩
    t.strings.length < 2 ^ 64 ∧ Machine.window t 1 = some ["b", "c"] ∧ Machine.window t 3 = none ∧
      t.reducedTuple? 1 = some ["c", "d"] ∧ t.reducedTuple? 2 = none ∧
      t.reducedTuple? 9223372036854775808 = some ["a", "b"] ∧
      (∃ trap, Machine.tuple t 9223372036854775808 = Machine.Run.trap trap) := by
  intro t
  have hn : t.strings.length < 2 ^ 64 := by decide
  obtain ⟨hwindow, -, -, -, -, -, htuple, -⟩ := positions_are_exact t hn 1
  obtain ⟨-, houtside, -⟩ := positions_are_exact t hn 3
  obtain ⟨-, -, -, -, -, -, -, hnext, -⟩ := positions_are_exact t hn 2
  obtain ⟨-, -, -, hfar, -, -, -, -, htrap, -⟩ := positions_are_exact t hn 9223372036854775808
  refine ⟨hn, (hwindow _).2 ⟨by decide, by decide⟩, houtside.2 (by decide), ?_, (hnext (by decide)).2 (by decide),
    (hfar _).2 ⟨by decide, by decide⟩, htrap.2 (by decide)⟩
  exact (htuple (by decide)).2.1

/-- Without checks, not every number for which there is no tuple traps. -/
theorem tuple_beyond_the_end :
    ¬ ∀ (t : InMemoryTuples) (i : UInt64), t.reducedTuple? i = none ↔ t.length ≤ i.toNat := by
  intro h
  have hnone := (h ⟨2, ["a", "b", "c", "d"], by decide, by decide⟩ 9223372036854775808).2 (by decide)
  exact absurd hnone (by decide)

/-! ## Comparing -/

/-- The strings from two positions on are in the list and equal, `n` of each. -/
def Agree (strings : List String) (i j n : Nat) : Prop :=
  ∀ k < n, ∃ s, strings[i + k]? = some s ∧ strings[j + k]? = some s

section Comparing

variable {strings : List String} {i j k n : Nat} {x y : String}

theorem Agree.tail (h : Agree strings i j (n + 1)) : Agree strings (i + 1) (j + 1) n := by
  intro k hk
  obtain ⟨s, hi, hj⟩ := h (k + 1) (Nat.succ_lt_succ hk)
  refine ⟨s, ?_, ?_⟩
  · rwa [Nat.add_right_comm]
  · rwa [Nat.add_right_comm]

theorem Agree.snoc (h : Agree strings i j n)
    (hn : ∃ s, strings[i + n]? = some s ∧ strings[j + n]? = some s) : Agree strings i j (n + 1) := by
  intro k hk
  rcases Nat.lt_succ_iff_lt_or_eq.1 hk with hlt | rfl
  · exact h k hlt
  · exact hn

/-- Strings agree throughout, or up to a first place where they do not. -/
theorem agree_or_first (strings : List String) (i j n : Nat) :
    Agree strings i j n ∨ ∃ k < n, Agree strings i j k ∧
      ¬ ∃ s, strings[i + k]? = some s ∧ strings[j + k]? = some s := by
  induction n with
  | zero => exact Or.inl nofun
  | succ n ih =>
      -- the last place counts only if all before it agree
      rcases ih with hall | ⟨k, hk, hfirst⟩
      · by_cases hn : ∃ s, strings[i + n]? = some s ∧ strings[j + n]? = some s
        · exact Or.inl (hall.snoc hn)
        · exact Or.inr ⟨n, Nat.lt_succ_self n, hall, hn⟩
      · exact Or.inr ⟨k, Nat.lt_succ_of_lt hk, hfirst⟩

/-- **Strings that agree are passed over.** -/
theorem lessFrom_of_agree (h : Agree strings i j k) (n : Nat) :
    lessFrom strings (k + n) i j = lessFrom strings n (i + k) (j + k) := by
  induction k generalizing i j with
  | zero => rw [Nat.zero_add, Nat.add_zero, Nat.add_zero]
  | succ k ih =>
      obtain ⟨s, hi, hj⟩ := h 0 (Nat.succ_pos k)
      rw [Nat.add_zero] at hi hj
      rw [Nat.succ_add, lessFrom, hi, hj]
      dsimp only
      -- what is left agrees one place further on
      rw [if_pos rfl, ih h.tail, Nat.add_right_comm i, Nat.add_right_comm j]
      rfl

/-- The first place where strings do not agree is where the comparison ends. -/
theorem lessFrom_of_first (hk : k < n) (h : Agree strings i j k) :
    ∃ rest, lessFrom strings n i j = lessFrom strings (rest + 1) (i + k) (j + k) := by
  obtain ⟨rest, rfl⟩ := Nat.exists_eq_add_of_lt hk
  exact ⟨rest, lessFrom_of_agree h (rest + 1)⟩

/-- **The first strings that differ decide**, wherever the rest of the windows would be. -/
theorem lessFrom_of_ne (hk : k < n) (h : Agree strings i j k) (hx : strings[i + k]? = some x)
    (hy : strings[j + k]? = some y) (hne : x ≠ y) : lessFrom strings n i j = some (Text.le x y) := by
  obtain ⟨rest, hrest⟩ := lessFrom_of_first hk h
  rw [hrest, lessFrom, hx, hy]
  exact if_neg hne

/-- **A place outside ends the comparison without a result**, if no strings before it differ. -/
theorem lessFrom_of_outside (hk : k < n) (h : Agree strings i j k)
    (hout : strings.length ≤ i + k ∨ strings.length ≤ j + k) : lessFrom strings n i j = none := by
  obtain ⟨rest, hrest⟩ := lessFrom_of_first hk h
  rw [hrest, lessFrom]
  rcases hout with hi | hj
  · rw [List.getElem?_eq_none hi]
  · rw [List.getElem?_eq_none hj]
    split
    · next hb => cases hb
    · rfl

theorem lessFrom_eq_none_iff :
    lessFrom strings n i j = none ↔
      ∃ k < n, Agree strings i j k ∧ (strings.length ≤ i + k ∨ strings.length ≤ j + k) := by
  constructor
  · intro hnone
    rcases agree_or_first strings i j n with hall | ⟨k, hk, hagree, hfirst⟩
    · have hpassed := lessFrom_of_agree hall 0
      rw [Nat.add_zero, hnone] at hpassed
      cases hpassed
    · refine ⟨k, hk, hagree, ?_⟩
      by_cases hi : i + k < strings.length
      · by_cases hj : j + k < strings.length
        -- two strings there would be equal or decide
        · have hx := List.getElem?_eq_getElem hi
          have hy := List.getElem?_eq_getElem hj
          by_cases heq : strings[i + k] = strings[j + k]
          · exact absurd ⟨_, hx, heq ▸ hy⟩ hfirst
          · rw [lessFrom_of_ne hk hagree hx hy heq] at hnone
            cases hnone
        · exact Or.inr (Nat.le_of_not_lt hj)
      · exact Or.inl (Nat.le_of_not_lt hi)
  · rintro ⟨k, hk, hagree, hout⟩
    exact lessFrom_of_outside hk hagree hout

end Comparing

section Positions

variable {t : InMemoryTuples} {i j : UInt64}

/-- **Comparing has no result exactly if the windows agree up to a place outside the list.** -/
theorem less?_eq_none_iff :
    t.less? i j = none ↔
      ∃ k < t.width, Agree t.strings i.toNat j.toNat k ∧
        (t.strings.length ≤ i.toNat + k ∨ t.strings.length ≤ j.toNat + k) :=
  lessFrom_eq_none_iff

/-- Windows that lie in the list are compared. -/
theorem not_inRange_of_less?_eq_none (h : t.less? i j = none) : ¬ (t.InRange i ∧ t.InRange j) := by
  rintro ⟨hi, hj⟩
  rw [less?_of_inRange hi hj] at h
  cases h

/-- A window that leaves the list agrees with itself up to the end. -/
theorem less?_self_eq_none_iff : t.less? i i = none ↔ ¬ t.InRange i := by
  constructor
  · intro h hi
    exact not_inRange_of_less?_eq_none h ⟨hi, hi⟩
  · intro hi
    have hout : t.strings.length < i.toNat + t.width := Nat.lt_of_not_le hi
    have hwidth := t.width_pos
    -- the place that is reached is the first one behind the list
    refine less?_eq_none_iff.2 ⟨t.strings.length - i.toNat, by omega, fun k hk => ?_, Or.inl (by omega)⟩
    have hin := List.getElem?_eq_getElem (show i.toNat + k < t.strings.length by omega)
    exact ⟨_, hin, hin⟩

/-! ## Exchanging -/

/-- Runs are exchanged only where every place of both is in the list. -/
theorem inside_of_exchangeFrom {strings strings' : List String} {n p q : Nat}
    (h : exchangeFrom strings n p q = some strings') {k : Nat} (hk : k < n) :
    p + k < strings.length ∧ q + k < strings.length := by
  induction n generalizing strings p q k with
  | zero => cases hk
  | succ n ih =>
      obtain ⟨between, hfirst, hrest⟩ := exchangeFrom_succ_eq_some_iff.1 h
      cases k with
      -- the exchange of the first pair reached it, the rest is a shorter run on a list as long
      | zero =>
          obtain ⟨hp, hq, -⟩ := exchange?_eq_some_iff.1 hfirst
          exact ⟨hp, hq⟩
      | succ k =>
          have hlength := length_exchange? hfirst
          obtain ⟨hp, hq⟩ := ih hrest (Nat.lt_of_succ_lt_succ hk)
          omega

/-- **Exchanging has no result exactly if one of the windows leaves the list.** -/
theorem swap?_eq_none_iff : t.swap? i j = none ↔ ¬ (t.InRange i ∧ t.InRange j) := by
  constructor
  · rintro hnone ⟨hi, hj⟩
    obtain ⟨u, hu⟩ := exists_swap? hi hj
    rw [hnone] at hu
    cases hu
  · intro hout
    cases hswap : t.swap? i j with
    | none => rfl
    | some u =>
        -- the last places of both windows were reached
        have hwidth := t.width_pos
        have hlast := inside_of_exchangeFrom (swap?_eq_some_iff.1 hswap).2 (Nat.sub_one_lt_of_lt hwidth)
        exact absurd (by unfold InRange; omega) hout

end Positions

/-- **Comparing fails only on agreement, exchanging on any place outside.** At any two positions: comparing traps
exactly if the windows agree up to a place that is outside the list, and then one of them leaves the list. Before
that, the first strings that differ decide, whether or not the windows end in the list. Compared with itself, a
window traps exactly if it leaves the list, and exchanging traps exactly if one of the windows does. -/
theorem comparing_fails_on_agreement (t : InMemoryTuples) (hn : t.strings.length < 2 ^ 64) (i j : UInt64) :
    (t.less? i j = none ↔ ∃ k < t.width, Agree t.strings i.toNat j.toNat k ∧
      (t.strings.length ≤ i.toNat + k ∨ t.strings.length ≤ j.toNat + k)) ∧
    (t.less? i j = none → ¬ (t.InRange i ∧ t.InRange j)) ∧
    (∀ k < t.width, ∀ x y, Agree t.strings i.toNat j.toNat k → t.strings[i.toNat + k]? = some x →
      t.strings[j.toNat + k]? = some y → x ≠ y → t.less? i j = some (Text.le x y)) ∧
    (t.less? i i = none ↔ ¬ t.InRange i) ∧
    (t.swap? i j = none ↔ ¬ (t.InRange i ∧ t.InRange j)) ∧
    ((∃ trap, Machine.less t i j = Machine.Run.trap trap) ↔ t.less? i j = none) ∧
    ((∃ trap, Machine.swap t i j = Machine.Run.trap trap) ↔ t.swap? i j = none) := by
  refine ⟨less?_eq_none_iff, not_inRange_of_less?_eq_none, ?_, less?_self_eq_none_iff, swap?_eq_none_iff,
    (Machine.mirrors_less hn i j).trap_iff, ?_⟩
  · intro k hk x y hagree hx hy hne
    exact lessFrom_of_ne hk hagree hx hy hne
  · rw [(Machine.mirrors_swap hn i j).trap_iff, Option.map_eq_none_iff]

/-- The last string against the first: they differ, so the string after the last is not reached. -/
theorem comparing_fails_on_agreement_lastAndFirst :
    let t : InMemoryTuples := ⟨2, ["a", "1", "b", "2"], by decide, by decide⟩
    t.strings.length < 2 ^ 64 ∧ ¬ t.InRange 3 ∧ t.less? 3 0 = some (Text.le "2" "a") ∧ t.less? 3 3 = none ∧
      t.swap? 3 0 = none := by
  intro t
  have hn : t.strings.length < 2 ^ 64 := by decide
  have hout : ¬ t.InRange 3 := by decide
  obtain ⟨-, -, hdecided, hself, hswap, -⟩ := comparing_fails_on_agreement t hn 3 0
  exact ⟨hn, hout, hdecided 0 (by decide) "2" "a" nofun rfl rfl (by decide), hself.2 hout,
    hswap.2 fun h => hout h.1⟩

/-- Leaving the list is not enough for comparing to have no result. -/
theorem comparing_beyond_the_end :
    ¬ ∀ (t : InMemoryTuples) (i j : UInt64), t.less? i j = none ↔ ¬ (t.InRange i ∧ t.InRange j) := by
  intro h
  have hnone := (h ⟨2, ["a", "1", "b", "2"], by decide, by decide⟩ 3 0).2 (by decide)
  exact absurd hnone (by decide)

end SeriesBlock.InMemoryTuples
