import SeriesBlock.Proofs.Text
import SeriesBlock.Proofs.Tuples.Flat

/-!
# Comparing and exchanging windows

Windows of a flat list are compared string by string, up to the first that differ, and exchanged string by
string from the front. The comparison is the lexicographic order of the windows as a whole, by the bytes of the
strings (`lessFrom_eq`), wherever they stand and whether or not they overlap.

One exchange of two strings moves nothing else (`exchange?_of_ne`). So a run of exchanges always leaves the same
strings in some order and everything outside both windows in place (`perm_exchangeFrom`,
`exchangeFrom_of_outside`). Where the windows lie apart, no later exchange reaches a place that an earlier one
has filled, and the windows as a whole are exchanged (`exchangeFrom_of_apart`).

The main statement is `windows_are_ordered_and_exchanged`.
-/

set_option autoImplicit false

namespace SeriesBlock

/-! ## The order of lists of strings -/

namespace Text

/-- The list comes first: at the first field that differs, by the bytes of the field. -/
def FieldsBefore (a b : List String) : Prop :=
  a.map Utf8.encode < b.map Utf8.encode

instance : DecidableRel FieldsBefore := fun a b =>
  inferInstanceAs (Decidable (a.map Utf8.encode < b.map Utf8.encode))

section Order

variable {a b c : List String} {x y : String}

theorem not_fieldsBefore_self (a : List String) : ¬ FieldsBefore a a :=
  List.lt_irrefl _

theorem FieldsBefore.trans (hab : FieldsBefore a b) (hbc : FieldsBefore b c) : FieldsBefore a c :=
  List.lt_trans hab hbc

/-- Lists of which neither comes first are equal. -/
theorem eq_of_not_fieldsBefore (hab : ¬ FieldsBefore a b) (hba : ¬ FieldsBefore b a) : a = b := by
  apply (List.map_inj_right fun _ _ => Utf8.encode_injective).1
  exact List.le_antisymm (List.not_lt.1 hba) (List.not_lt.1 hab)

/-- One of two lists comes first, or they are equal, and not two of these. -/
theorem fieldsBefore_trichotomy (a b : List String) :
    (FieldsBefore a b ∧ ¬ FieldsBefore b a ∧ a ≠ b) ∨ (¬ FieldsBefore a b ∧ FieldsBefore b a ∧ a ≠ b) ∨
      (¬ FieldsBefore a b ∧ ¬ FieldsBefore b a ∧ a = b) := by
  by_cases hab : FieldsBefore a b
  · refine Or.inl ⟨hab, fun hba => not_fieldsBefore_self _ (hab.trans hba), ?_⟩
    rintro rfl
    exact not_fieldsBefore_self _ hab
  · by_cases hba : FieldsBefore b a
    · refine Or.inr (Or.inl ⟨hab, hba, ?_⟩)
      rintro rfl
      exact not_fieldsBefore_self _ hba
    · exact Or.inr (Or.inr ⟨hab, hba, eq_of_not_fieldsBefore hab hba⟩)

theorem fieldsBefore_cons_self : FieldsBefore (x :: a) (x :: b) ↔ FieldsBefore a b := by
  simp [FieldsBefore]

/-- Where the first fields differ, they decide. -/
theorem fieldsBefore_cons_of_ne (h : x ≠ y) :
    FieldsBefore (x :: a) (y :: b) ↔ Text.le x y = true := by
  have hne : Utf8.encode x ≠ Utf8.encode y := fun he => h (Utf8.encode_injective he)
  rw [FieldsBefore, List.map_cons, List.map_cons, List.cons_lt_cons_iff, Text.le, decide_eq_true_iff]
  constructor
  · rintro (hlt | ⟨heq, -⟩)
    · exact List.le_of_lt hlt
    · exact absurd heq hne
  · intro hle
    exact Or.inl (Std.lt_of_le_of_ne hle hne)

end Order

end Text

namespace InMemoryTuples

open Text

/-! ## Comparing -/

/-- **Comparing string by string is the lexicographic order.** -/
theorem lessFrom_eq (strings : List String) {n i j : Nat} (hi : i + n ≤ strings.length)
    (hj : j + n ≤ strings.length) :
    lessFrom strings n i j =
      some (decide (FieldsBefore ((strings.drop i).take n) ((strings.drop j).take n))) := by
  induction n generalizing i j with
  | zero =>
      simp [lessFrom, not_fieldsBefore_self]
  | succ n ih =>
      have hi' : i < strings.length := by omega
      have hj' : j < strings.length := by omega
      rw [lessFrom, List.getElem?_eq_getElem hi', List.getElem?_eq_getElem hj',
        List.drop_eq_getElem_cons hi', List.drop_eq_getElem_cons hj', List.take_succ_cons,
        List.take_succ_cons]
      -- equal strings leave it to the rest, others decide
      by_cases h : strings[i] = strings[j]
      · simp only [if_pos h]
        rw [ih (by omega) (by omega), h, decide_eq_decide.2 fieldsBefore_cons_self]
      · simp only [if_neg h]
        rw [Option.some.injEq, Bool.eq_iff_iff, decide_eq_true_iff, fieldsBefore_cons_of_ne h]

theorem less?_of_inRange {t : InMemoryTuples} {i j : UInt64} (hi : t.InRange i) (hj : t.InRange j) :
    t.less? i j = some (decide (FieldsBefore (t.window i.toNat) (t.window j.toNat))) :=
  lessFrom_eq t.strings hi hj

/-! ## Exchanging two strings -/

section Exchange

variable {strings strings' : List String} {i j p : Nat}

theorem exchange?_eq_some_iff :
    exchange? strings i j = some strings' ↔
      ∃ (hi : i < strings.length) (hj : j < strings.length),
        strings' = (strings.set i strings[j]).set j strings[i] := by
  unfold exchange?
  by_cases hi : i < strings.length
  · by_cases hj : j < strings.length
    · simp [hi, hj, eq_comm]
    · simp [hi, hj]
  · simp [hi]

theorem perm_exchange? (h : exchange? strings i j = some strings') : strings'.Perm strings := by
  obtain ⟨hi, hj, rfl⟩ := exchange?_eq_some_iff.1 h
  exact List.set_set_perm hi hj

theorem exchange?_left (h : exchange? strings i j = some strings') : strings'[i]? = strings[j]? := by
  obtain ⟨hi, hj, rfl⟩ := exchange?_eq_some_iff.1 h
  by_cases hij : j = i
  · subst hij
    simp [hj]
  · simp [hij, hi, hj]

theorem exchange?_right (h : exchange? strings i j = some strings') : strings'[j]? = strings[i]? := by
  obtain ⟨hi, hj, rfl⟩ := exchange?_eq_some_iff.1 h
  simp [hi, hj]

/-- Nothing else is moved. -/
theorem exchange?_of_ne (h : exchange? strings i j = some strings') (hi : p ≠ i) (hj : p ≠ j) :
    strings'[p]? = strings[p]? := by
  obtain ⟨_, _, rfl⟩ := exchange?_eq_some_iff.1 h
  rw [List.getElem?_set_ne (Ne.symm hj), List.getElem?_set_ne (Ne.symm hi)]

theorem exchange?_self (hi : i < strings.length) : exchange? strings i i = some strings := by
  rw [exchange?_eq_some_iff]
  exact ⟨hi, hi, by simp⟩

end Exchange

/-! ## Exchanging runs of strings -/

section Run

variable {strings strings' : List String} {n i j p : Nat}

theorem exchangeFrom_succ_eq_some_iff :
    exchangeFrom strings (n + 1) i j = some strings' ↔
      ∃ between, exchange? strings i j = some between ∧
        exchangeFrom between n (i + 1) (j + 1) = some strings' := by
  rw [exchangeFrom]
  cases exchange? strings i j with
  | none => simp
  | some between => simp

/-- Runs that lie in the list can be exchanged. -/
theorem exists_exchangeFrom (hi : i + n ≤ strings.length) (hj : j + n ≤ strings.length) :
    ∃ strings', exchangeFrom strings n i j = some strings' := by
  induction n generalizing strings i j with
  | zero => exact ⟨strings, rfl⟩
  | succ n ih =>
      have hfirst := exchange?_eq_some_iff.2 ⟨show i < strings.length by omega,
        show j < strings.length by omega, rfl⟩
      have hlength := length_exchange? hfirst
      obtain ⟨strings', hrest⟩ := @ih _ (i + 1) (j + 1) (by rw [hlength]; omega) (by rw [hlength]; omega)
      exact ⟨strings', exchangeFrom_succ_eq_some_iff.2 ⟨_, hfirst, hrest⟩⟩

/-- **Exchanging runs leaves the same strings**, also where the runs overlap. -/
theorem perm_exchangeFrom (h : exchangeFrom strings n i j = some strings') : strings'.Perm strings := by
  induction n generalizing strings i j with
  | zero =>
      cases h
      exact .refl _
  | succ n ih =>
      obtain ⟨between, hfirst, hrest⟩ := exchangeFrom_succ_eq_some_iff.1 h
      exact (ih hrest).trans (perm_exchange? hfirst)

/-- **What stands outside both runs stays.** -/
theorem exchangeFrom_of_outside (h : exchangeFrom strings n i j = some strings')
    (hi : ¬ (i ≤ p ∧ p < i + n)) (hj : ¬ (j ≤ p ∧ p < j + n)) : strings'[p]? = strings[p]? := by
  induction n generalizing strings i j with
  | zero =>
      cases h
      rfl
  | succ n ih =>
      obtain ⟨between, hfirst, hrest⟩ := exchangeFrom_succ_eq_some_iff.1 h
      rw [ih hrest (by omega) (by omega)]
      exact exchange?_of_ne hfirst (by omega) (by omega)

/-- **Runs that lie apart are exchanged as a whole.** -/
theorem exchangeFrom_of_apart (h : exchangeFrom strings n i j = some strings')
    (hapart : i + n ≤ j ∨ j + n ≤ i) {k : Nat} (hk : k < n) :
    strings'[i + k]? = strings[j + k]? ∧ strings'[j + k]? = strings[i + k]? := by
  induction n generalizing strings i j k with
  | zero => cases hk
  | succ n ih =>
      obtain ⟨between, hfirst, hrest⟩ := exchangeFrom_succ_eq_some_iff.1 h
      cases k with
      -- the first two strings are out of reach of the later exchanges
      | zero =>
          rw [Nat.add_zero, Nat.add_zero, exchangeFrom_of_outside hrest (by omega) (by omega),
            exchangeFrom_of_outside hrest (by omega) (by omega)]
          exact ⟨exchange?_left hfirst, exchange?_right hfirst⟩
      -- the others are out of reach of the first exchange
      | succ k =>
          obtain ⟨hleft, hright⟩ := ih hrest (by omega) (Nat.lt_of_succ_lt_succ hk)
          have hi : i + (k + 1) = i + 1 + k := by omega
          have hj : j + (k + 1) = j + 1 + k := by omega
          rw [hi, hj, hleft, hright]
          exact ⟨exchange?_of_ne hfirst (by omega) (by omega), exchange?_of_ne hfirst (by omega) (by omega)⟩

/-- Exchanging a run with itself changes nothing. -/
theorem exchangeFrom_self (hi : i + n ≤ strings.length) :
    exchangeFrom strings n i i = some strings := by
  induction n generalizing i with
  | zero => rfl
  | succ n ih =>
      exact exchangeFrom_succ_eq_some_iff.2
        ⟨strings, exchange?_self (by omega), ih (by omega)⟩

/-- Exchanging runs that lie apart twice restores the list. -/
theorem exchangeFrom_twice {strings'' : List String} (h : exchangeFrom strings n i j = some strings')
    (h' : exchangeFrom strings' n i j = some strings'') (hapart : i + n ≤ j ∨ j + n ≤ i) :
    strings'' = strings := by
  apply List.ext_getElem?
  intro p
  by_cases hi : i ≤ p ∧ p < i + n
  · obtain ⟨k, rfl⟩ := Nat.exists_eq_add_of_le hi.1
    have hk : k < n := by omega
    rw [(exchangeFrom_of_apart h' hapart hk).1, (exchangeFrom_of_apart h hapart hk).2]
  · by_cases hj : j ≤ p ∧ p < j + n
    · obtain ⟨k, rfl⟩ := Nat.exists_eq_add_of_le hj.1
      have hk : k < n := by omega
      rw [(exchangeFrom_of_apart h' hapart hk).2, (exchangeFrom_of_apart h hapart hk).1]
    · rw [exchangeFrom_of_outside h' hi hj, exchangeFrom_of_outside h hi hj]

end Run

/-! ## Exchanging windows -/

/-- A place of the flat list is in the window at a position. -/
def InWindow (t : InMemoryTuples) (i : UInt64) (p : Nat) : Prop :=
  i.toNat ≤ p ∧ p < i.toNat + t.width

instance (t : InMemoryTuples) (i : UInt64) (p : Nat) : Decidable (t.InWindow i p) :=
  inferInstanceAs (Decidable (_ ∧ _))

/-- The windows at two positions do not overlap. -/
def Apart (t : InMemoryTuples) (i j : UInt64) : Prop :=
  i.toNat + t.width ≤ j.toNat ∨ j.toNat + t.width ≤ i.toNat

instance (t : InMemoryTuples) (i j : UInt64) : Decidable (t.Apart i j) :=
  inferInstanceAs (Decidable (_ ∨ _))

section Swap

variable {t u : InMemoryTuples} {i j : UInt64}

theorem swap?_eq_some_iff :
    t.swap? i j = some u ↔
      u.arity = t.arity ∧ exchangeFrom t.strings t.width i.toNat j.toNat = some u.strings := by
  unfold swap?
  split
  · next strings hs =>
    constructor
    · rintro ⟨⟩
      exact ⟨rfl, hs⟩
    · rintro ⟨harity, hstrings⟩
      have hsame : strings = u.strings := Option.some.inj (hs.symm.trans hstrings)
      exact congrArg some (eq_of_strings harity.symm hsame)
  · next hs => simp [hs]

theorem exists_swap? (hi : t.InRange i) (hj : t.InRange j) : ∃ u, t.swap? i j = some u := by
  obtain ⟨strings, hs⟩ := exists_exchangeFrom hi hj
  have hwhole : t.arity.toNat ∣ strings.length := length_exchangeFrom hs ▸ t.whole
  exact ⟨⟨t.arity, strings, t.arity_pos, hwhole⟩, swap?_eq_some_iff.2 ⟨rfl, hs⟩⟩

/-- Windows that agree place by place are equal. -/
theorem window_eq_of_getElem? (harity : u.arity = t.arity) {p q : Nat}
    (h : ∀ k, k < t.width → u.strings[p + k]? = t.strings[q + k]?) : u.window p = t.window q := by
  have hwidth : u.width = t.width := congrArg UInt64.toNat harity
  apply List.ext_getElem?
  intro k
  rw [window, window, List.getElem?_take, List.getElem?_take, List.getElem?_drop, List.getElem?_drop, hwidth]
  by_cases hk : k < t.width
  · rw [if_pos hk, if_pos hk, h k hk]
  · rw [if_neg hk, if_neg hk]

/-- The windows are exchanged, if they lie apart or are the same. -/
theorem window_swap? (h : t.swap? i j = some u) (hi : t.InRange i) (hij : i = j ∨ t.Apart i j) :
    u.window i.toNat = t.window j.toNat ∧ u.window j.toNat = t.window i.toNat := by
  obtain ⟨harity, hs⟩ := swap?_eq_some_iff.1 h
  rcases hij with rfl | hapart
  · rw [exchangeFrom_self hi, Option.some.injEq] at hs
    have hsame := window_eq_of_getElem? harity (p := i.toNat) (q := i.toNat) fun k _ => by rw [hs]
    exact ⟨hsame, hsame⟩
  · exact ⟨window_eq_of_getElem? harity fun k hk => (exchangeFrom_of_apart hs hapart hk).1,
      window_eq_of_getElem? harity fun k hk => (exchangeFrom_of_apart hs hapart hk).2⟩

theorem inRange_swap? {p : UInt64} (h : t.swap? i j = some u) (hp : t.InRange p) : u.InRange p := by
  obtain ⟨harity, hs⟩ := swap?_eq_some_iff.1 h
  have hwidth : u.width = t.width := congrArg UInt64.toNat harity
  rwa [InRange, hwidth, length_exchangeFrom hs]

/-- Exchanging the windows once more restores the value. -/
theorem swap?_twice (h : t.swap? i j = some u) (hi : t.InRange i) (hj : t.InRange j)
    (hij : i = j ∨ t.Apart i j) : u.swap? i j = some t := by
  obtain ⟨v, h'⟩ := exists_swap? (inRange_swap? h hi) (inRange_swap? h hj)
  obtain ⟨harity, hs⟩ := swap?_eq_some_iff.1 h
  obtain ⟨harity', hs'⟩ := swap?_eq_some_iff.1 h'
  have hwidth : u.width = t.width := congrArg UInt64.toNat harity
  rw [hwidth] at hs'
  have hstrings : v.strings = t.strings := by
    rcases hij with rfl | hapart
    · rw [exchangeFrom_self hi, Option.some.injEq] at hs
      rw [← hs, exchangeFrom_self hi, Option.some.injEq] at hs'
      exact hs'.symm
    · exact exchangeFrom_twice hs hs' hapart
  rw [h', eq_of_strings (harity'.trans harity) hstrings]

end Swap

/-- **Windows are ordered, and exchanged string by string.** At positions whose windows lie in the list, whether
or not tuples begin there: comparing is lexicographic order of what is read at the positions, by the bytes of
the strings, and so a strict order of which windows are either before, after or equal to one another.
Exchanging leaves the same strings and all places outside both windows as they were. Windows that do not overlap,
or are one window, are exchanged as a whole, and doing so twice restores the value. -/
theorem windows_are_ordered_and_exchanged (t : InMemoryTuples) {i j k : UInt64} (hi : t.InRange i)
    (hj : t.InRange j) (hk : t.InRange k) :
    ∃ x y, t.get? i = some x ∧ t.get? j = some y ∧
      (t.less? i j = some (decide (FieldsBefore x y))) ∧
      (t.less? i i = some false) ∧
      (t.less? i j = some true → t.less? j k = some true → t.less? i k = some true) ∧
      ((t.less? i j = some true ∧ t.less? j i = some false ∧ x ≠ y) ∨
        (t.less? i j = some false ∧ t.less? j i = some true ∧ x ≠ y) ∨
        (t.less? i j = some false ∧ t.less? j i = some false ∧ x = y)) ∧
      ∃ u, t.swap? i j = some u ∧ u.arity = t.arity ∧ u.strings.Perm t.strings ∧
        (∀ p, ¬ t.InWindow i p → ¬ t.InWindow j p → u.strings[p]? = t.strings[p]?) ∧
        (i = j ∨ t.Apart i j →
          u.get? i = some y ∧ u.get? j = some x ∧ u.swap? i j = some t) := by
  refine ⟨_, _, t.get?_of_inRange hi, t.get?_of_inRange hj, less?_of_inRange hi hj, ?_, ?_, ?_, ?_⟩
  · rw [less?_of_inRange hi hi, decide_eq_false (not_fieldsBefore_self _)]
  · rw [less?_of_inRange hi hj, less?_of_inRange hj hk, less?_of_inRange hi hk]
    simp only [Option.some.injEq, decide_eq_true_iff]
    exact FieldsBefore.trans
  · rw [less?_of_inRange hi hj, less?_of_inRange hj hi]
    simp only [Option.some.injEq, decide_eq_true_iff, decide_eq_false_iff_not]
    exact fieldsBefore_trichotomy _ _
  · obtain ⟨u, hu⟩ := exists_swap? hi hj
    obtain ⟨harity, hs⟩ := swap?_eq_some_iff.1 hu
    refine ⟨u, hu, harity, perm_exchangeFrom hs, fun p => exchangeFrom_of_outside hs, ?_⟩
    intro hij
    obtain ⟨hleft, hright⟩ := window_swap? hu hi hij
    rw [u.get?_of_inRange (inRange_swap? hu hi), u.get?_of_inRange (inRange_swap? hu hj), hleft, hright]
    exact ⟨rfl, rfl, swap?_twice hu hi hj hij⟩

/-- A window that no tuple begins with, one that does, and one that overlaps the first. -/
theorem windows_are_ordered_and_exchanged_unaligned :
    let t : InMemoryTuples := ⟨2, ["b", "1", "a", "2", "a", "1"], by decide, by decide⟩
    (t.InRange 1 ∧ t.InRange 4 ∧ t.InRange 0) ∧ (t.Apart 1 4 ∧ ¬ t.Apart 1 0) ∧
      t.less? 1 4 = some (decide (FieldsBefore ["1", "a"] ["a", "1"])) ∧ t.less? 1 1 = some false ∧
      (∃ u, t.swap? 1 4 = some u ∧ u.get? 1 = some ["a", "1"] ∧ u.get? 4 = some ["1", "a"] ∧
        u.strings[0]? = some "b" ∧ u.strings[3]? = some "2" ∧ u.swap? 1 4 = some t) ∧
      ∃ u, t.swap? 1 0 = some u ∧ u.strings.Perm t.strings ∧ u.strings[3]? = some "2" := by
  intro t
  have h₁ : t.InRange 1 := by decide
  have h₄ : t.InRange 4 := by decide
  have h₀ : t.InRange 0 := by decide
  have hapart : t.Apart 1 4 := by decide
  have hover : ¬ t.Apart 1 0 := by decide
  obtain ⟨x, y, hx, hy, hless, hself, -, -, u, hu, -, -, hframe, hback⟩ :=
    windows_are_ordered_and_exchanged t h₁ h₄ h₀
  obtain ⟨hleft, hright, htwice⟩ := hback (Or.inr hapart)
  obtain ⟨-, -, -, -, -, -, -, -, v, hv, -, hperm, hframe', -⟩ :=
    windows_are_ordered_and_exchanged t h₁ h₀ h₀
  obtain rfl : ["1", "a"] = x := Option.some.inj hx
  obtain rfl : ["a", "1"] = y := Option.some.inj hy
  refine ⟨⟨h₁, h₄, h₀⟩, ⟨hapart, hover⟩, hless, hself, ⟨u, hu, hleft, hright, ?_, ?_, htwice⟩, v, hv, hperm, ?_⟩
  · exact hframe 0 (by decide) (by decide)
  · exact hframe 3 (by decide) (by decide)
  · exact hframe' 3 (by decide) (by decide)

end InMemoryTuples

end SeriesBlock
