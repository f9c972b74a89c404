import SeriesBlock.Proofs.Rows
import SeriesBlock.Tuples.InMemory

/-!
# Tuples and the flat list

The flat list of tuples in memory and the list of its tuples correspond: the tuples are the rows that the flat
list is made of (`toList_eq_of_flatten`), the flat list is what they flatten to (`flatten_toList`), and so a value
is determined by its arity and its tuples (`eq_of_toList`). Positions in the flat list name windows of it
(`window`); the tuples are those that begin at multiples of the width (`getElem?_toList`).
-/

set_option autoImplicit false

namespace SeriesBlock.InMemoryTuples

section Structure

variable {t u : InMemoryTuples}

theorem width_pos (t : InMemoryTuples) : 0 < t.width :=
  t.arity_pos

theorem length_mul_width (t : InMemoryTuples) : t.length * t.width = t.strings.length :=
  Nat.div_mul_cancel t.whole

@[simp]
theorem length_toList (t : InMemoryTuples) : t.toList.length = t.length := by
  rw [toList, List.length_map, List.length_range]

/-- A value has no strings exactly where it has no tuples. -/
theorem isEmpty_eq (t : InMemoryTuples) : t.isEmpty = (t.length == 0) := by
  have hwidth : t.width ≠ 0 := Nat.ne_of_gt t.width_pos
  have hstrings : t.strings = [] ↔ t.length = 0 := by
    rw [← List.length_eq_zero_iff, ← t.length_mul_width, Nat.mul_eq_zero, or_iff_left hwidth]
  rw [isEmpty, Bool.eq_iff_iff, List.isEmpty_iff, beq_iff_eq, hstrings]

/-- The tuples of a flat list are the rows that it is made of. -/
theorem toList_eq_of_flatten {rows : List (List String)} (hflat : t.strings = rows.flatten)
    (hwidth : ∀ x ∈ rows, x.length = t.width) : t.toList = rows := by
  have hlength : t.length = rows.length := by
    rw [length, hflat, length_flatten_of_length hwidth, Nat.mul_div_cancel _ t.width_pos]
  apply List.ext_getElem
  · rw [length_toList, hlength]
  · intro i _ hi
    rw [← take_drop_flatten hwidth hi, ← hflat]
    simp [toList]

/-- **The tuples are the groups** that the flat list is taken apart into. -/
theorem toList_eq_groups (t : InMemoryTuples) : t.toList = groups t.width t.strings :=
  toList_eq_of_flatten (flatten_groups t.width_pos t.strings).symm (length_of_mem_groups t.whole)

/-- **The flat list is made of the tuples** and nothing else. -/
theorem flatten_toList (t : InMemoryTuples) : t.toList.flatten = t.strings := by
  rw [toList_eq_groups]
  exact flatten_groups t.width_pos t.strings

theorem eq_of_strings (harity : t.arity = u.arity) (hstrings : t.strings = u.strings) : t = u := by
  cases t
  cases u
  cases harity
  cases hstrings
  rfl

/-- A value is determined by its arity and its tuples. -/
theorem eq_of_toList (harity : t.arity = u.arity) (htuples : t.toList = u.toList) : t = u := by
  apply eq_of_strings harity
  rw [← flatten_toList t, ← flatten_toList u, htuples]

end Structure

/-! ## Windows -/

/-- The strings that stand where a tuple would if one began at a position. -/
def window (t : InMemoryTuples) (i : Nat) : List String :=
  (t.strings.drop i).take t.width

/-- The window at a position lies in the flat list. -/
def InRange (t : InMemoryTuples) (i : UInt64) : Prop :=
  i.toNat + t.width ≤ t.strings.length

instance (t : InMemoryTuples) (i : UInt64) : Decidable (t.InRange i) :=
  inferInstanceAs (Decidable (_ ≤ _))

section Windows

variable (t : InMemoryTuples)

/-- The windows of the tuples are those that lie in the list. -/
theorem lt_length_iff {n : Nat} : n < t.length ↔ n * t.width + t.width ≤ t.strings.length := by
  rw [← t.length_mul_width, ← Nat.succ_mul, Nat.mul_le_mul_right_iff t.width_pos, Nat.succ_le_iff]

/-- The window at a position is what is read there. -/
theorem get?_of_inRange {i : UInt64} (h : t.InRange i) : t.get? i = some (t.window i.toNat) := by
  rw [get?, slice?, if_pos ⟨Nat.le_add_right _ _, h⟩, Nat.add_sub_cancel_left, window]

/-- The tuple with a number is the window at that many widths. -/
theorem getElem?_toList (n : Nat) :
    t.toList[n]? = if n < t.length then some (t.window (n * t.width)) else none := by
  rw [toList, List.getElem?_map]
  by_cases h : n < t.length
  · rw [List.getElem?_range h, if_pos h]
    rfl
  · rw [List.getElem?_eq_none (by simpa using h), if_neg h]
    rfl

/-- **Asking for a tuple by its number gives the one in the list.** -/
theorem tuple?_eq (i : UInt64) : t.tuple? i = t.toList[i.toNat]? := by
  have hmul : (i.toNat + 1) * t.width = i.toNat * t.width + t.width := Nat.succ_mul _ _
  rw [getElem?_toList, tuple?, slice?, hmul, Nat.add_sub_cancel_left]
  by_cases h : i.toNat < t.length
  · rw [if_pos h, if_pos ⟨Nat.le_add_right _ _, t.lt_length_iff.1 h⟩, window]
  · rw [if_neg h, if_neg fun hin => h (t.lt_length_iff.2 hin.2)]

end Windows

end SeriesBlock.InMemoryTuples
