import SeriesBlock.Error
import SeriesBlock.Text.Utf8

/-!
# Tuples of strings in memory

Tuples of one arity, kept as one flat list of strings. Most operations address the flat list: a position names
the window of `arity` strings that starts there, whether or not a tuple does; `tuple?` addresses tuples. An
operation whose window leaves the list has no result.
-/

set_option autoImplicit false

namespace SeriesBlock

/-- Compares strings by their bytes. -/
def Text.le (a b : String) : Bool :=
  decide (Utf8.encode a ≤ Utf8.encode b)

/-- Compares lists of strings field by field. -/
def Text.leFields (a b : List String) : Bool :=
  decide (a.map Utf8.encode ≤ b.map Utf8.encode)

/-- Tuples of `arity` strings each, one after another in a flat list. -/
structure InMemoryTuples where
  arity : UInt64
  strings : List String
  arity_pos : 0 < arity.toNat
  whole : arity.toNat ∣ strings.length

namespace InMemoryTuples

/-- The tuples of a flat list, if it holds whole ones. -/
def ofStrings (strings : List String) (arity : UInt64) : Except BlockError InMemoryTuples :=
  if h : 0 < arity.toNat ∧ arity.toNat ∣ strings.length then .ok ⟨arity, strings, h.1, h.2⟩
  else .error .invalidSize

/-- How many strings make a tuple. -/
def width (t : InMemoryTuples) : Nat := t.arity.toNat

/-- How many tuples there are. -/
def length (t : InMemoryTuples) : Nat := t.strings.length / t.width

/-- Whether there are none. -/
def isEmpty (t : InMemoryTuples) : Bool := t.strings.isEmpty

/-- The strings from `start` up to `stop`, if these are positions in that order. -/
def slice? (strings : List String) (start stop : Nat) : Option (List String) :=
  if start ≤ stop ∧ stop ≤ strings.length then some ((strings.drop start).take (stop - start)) else none

/-- The window at position `i` of the flat list. -/
def get? (t : InMemoryTuples) (i : UInt64) : Option (List String) :=
  slice? t.strings i.toNat (i.toNat + t.width)

/-- The tuple with number `i`. -/
def tuple? (t : InMemoryTuples) (i : UInt64) : Option (List String) :=
  slice? t.strings (i.toNat * t.width) ((i.toNat + 1) * t.width)

/-- All tuples in order. -/
def toList (t : InMemoryTuples) : List (List String) :=
  (List.range t.length).map fun i => (t.strings.drop (i * t.width)).take t.width

/-- Compares `n` strings from position `i` with those from position `j`, up to the first that differ. There is no
result if a position is reached that is outside the list. -/
def lessFrom (strings : List String) : Nat → Nat → Nat → Option Bool
  | 0, _, _ => some false
  | n + 1, i, j =>
    match strings[i]?, strings[j]? with
    | some a, some b => if a = b then lessFrom strings n (i + 1) (j + 1) else some (Text.le a b)
    | _, _ => none

/-- Whether the window at position `i` comes before the one at position `j`. -/
def less? (t : InMemoryTuples) (i j : UInt64) : Option Bool :=
  lessFrom t.strings t.width i.toNat j.toNat

/-- The list with the strings at two positions exchanged. -/
def exchange? (strings : List String) (i j : Nat) : Option (List String) :=
  match strings[i]?, strings[j]? with
  | some a, some b => some ((strings.set i b).set j a)
  | _, _ => none

/-- Exchanges `n` strings from position `i` on with those from position `j` on, one pair after another. -/
def exchangeFrom (strings : List String) : Nat → Nat → Nat → Option (List String)
  | 0, _, _ => some strings
  | n + 1, i, j =>
    match exchange? strings i j with
    | some strings' => exchangeFrom strings' n (i + 1) (j + 1)
    | none => none

/-- Exchanging keeps the number of strings. -/
theorem length_exchange? {strings strings' : List String} {i j : Nat}
    (h : exchange? strings i j = some strings') : strings'.length = strings.length := by
  unfold exchange? at h
  split at h
  · cases h
    simp
  · cases h

/-- Exchanging runs keeps the number of strings. -/
theorem length_exchangeFrom {strings strings' : List String} {n i j : Nat}
    (h : exchangeFrom strings n i j = some strings') : strings'.length = strings.length := by
  induction n generalizing strings i j with
  | zero =>
    cases h
    rfl
  | succ n ih =>
    rw [exchangeFrom] at h
    split at h
    · next he => rw [ih h, length_exchange? he]
    · cases h

/-- The tuples with the windows at positions `i` and `j` exchanged, string by string from the front. -/
def swap? (t : InMemoryTuples) (i j : UInt64) : Option InMemoryTuples :=
  match h : exchangeFrom t.strings t.width i.toNat j.toNat with
  | some strings => some ⟨t.arity, strings, t.arity_pos, length_exchangeFrom h ▸ t.whole⟩
  | none => none

/-- The strings of the tuples in ascending order. -/
def sortedStrings (t : InMemoryTuples) : List String :=
  (t.toList.mergeSort Text.leFields).flatten

/-- A tuple is as long as the arity says. -/
theorem length_of_mem_toList {t : InMemoryTuples} {x : List String} (h : x ∈ t.toList) :
    x.length = t.width := by
  obtain ⟨i, hi, rfl⟩ := List.mem_map.1 h
  have hw : 0 < t.width := t.arity_pos
  have hd : t.length * t.width = t.strings.length := Nat.div_mul_cancel t.whole
  have hl : (i + 1) * t.width ≤ t.length * t.width :=
    Nat.mul_le_mul_right _ (List.mem_range.1 hi)
  rw [Nat.add_mul, Nat.one_mul] at hl
  rw [List.length_take, List.length_drop]
  omega

/-- Sorting leaves whole tuples. -/
theorem whole_sortedStrings (t : InMemoryTuples) : t.arity.toNat ∣ t.sortedStrings.length := by
  have h : ∀ l : List (List String), (∀ x ∈ l, x.length = t.width) →
      t.arity.toNat ∣ l.flatten.length := by
    intro l
    induction l with
    | nil =>
      intro _
      exact Nat.dvd_zero _
    | cons x l ih =>
      intro hl
      rw [List.flatten_cons, List.length_append, hl x List.mem_cons_self]
      exact Nat.dvd_add (Nat.dvd_refl _) (ih fun y hy => hl y (List.mem_cons_of_mem x hy))
  refine h _ fun x hx => ?_
  exact length_of_mem_toList ((List.mergeSort_perm t.toList Text.leFields).mem_iff.1 hx)

/-- The tuples in ascending order, field by field and by bytes within a field. -/
def sort (t : InMemoryTuples) : InMemoryTuples :=
  ⟨t.arity, t.sortedStrings, t.arity_pos, t.whole_sortedStrings⟩

end InMemoryTuples

end SeriesBlock
