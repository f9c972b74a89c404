import SeriesBlock.Proofs.Machine.Record
import SeriesBlock.Proofs.Tuples.Flat

/-!
# Tuples in memory on the machine

Tuples in memory have no outcome of their own at a position outside the list: the run stops. A run mirrors an
optional value (`Mirrors`) if it ends in that value, and traps where there is none.

Only one kind of address can leave the machine's width, the product of a number and the arity; it then traps
as a slice that leaves the list does, and the tuple is not there in either case (`mirrors_tuple`). A window is
given by a sum that is checked, so that it never traps (`window_eq`). Comparing and exchanging add one to their
positions only after both were in the list, so their sums fit (`mirrors_less`, `mirrors_swap`). Walking through
all tuples asks for those that are there (`tuplesInMemory_eq`).
-/

set_option autoImplicit false

namespace SeriesBlock.Machine

open Run

variable {α : Type}

/-! ## Runs that trap where there is no value -/

/-- A run ends in a value exactly if there is one, and otherwise traps. -/
inductive Mirrors : Run α → Option α → Prop where
  | value (a : α) : Mirrors (pure a) (some a)
  | trapped (t : Trap) : Mirrors (trap t) none

section Mirror

variable {m : Run α} {o : Option α}

theorem pure_ne_trap (a : α) (t : Trap) : (pure a : Run α) ≠ trap t := by
  intro h
  cases h

theorem Mirrors.trap_iff (h : Mirrors m o) : (∃ t, m = trap t) ↔ o = none := by
  cases h with
  | value a => exact iff_of_false (fun ⟨t, ht⟩ => pure_ne_trap a t ht) nofun
  | trapped t => exact iff_of_true ⟨t, rfl⟩ rfl

theorem Mirrors.eq_pure_iff {a : α} (h : Mirrors m o) : m = pure a ↔ o = some a := by
  cases h with
  | value a' =>
      constructor
      · intro he
        cases he
        rfl
      · intro he
        cases he
        rfl
  | trapped t => exact iff_of_false (fun ht => pure_ne_trap a t ht.symm) nofun

end Mirror

/-! ## Lists -/

/-- The element at a position. -/
def element (l : List α) (i : Nat) : Run α :=
  match l[i]? with
  | some a => pure a
  | none => trap .index

/-- The strings from `start` up to `stop`. -/
def strings (l : List String) (start stop : Nat) : Run (List String) :=
  match InMemoryTuples.slice? l start stop with
  | some s => pure s
  | none => trap .slice

theorem element_of_lt {l : List α} {i : Nat} (h : i < l.length) : element l i = pure l[i] := by
  rw [element, List.getElem?_eq_getElem h]

theorem element_of_le {l : List α} {i : Nat} (h : l.length ≤ i) : element l i = trap .index := by
  rw [element, List.getElem?_eq_none h]

/-! ## Windows and tuples -/

/-- The window at a position. A sum that does not fit is no place in the list. -/
def window (t : InMemoryTuples) (i : UInt64) : Option (List String) :=
  if i.toNat + t.width < 2 ^ 64 then InMemoryTuples.slice? t.strings i.toNat (i.toNat + t.width) else none

/-- The tuple with a number. -/
def tuple (t : InMemoryTuples) (i : UInt64) : Run (List String) := do
  let start ← mul i.toNat t.width
  let next ← add i.toNat 1
  let stop ← mul next t.width
  strings t.strings start stop

/-- All tuples in order. -/
def tuplesInMemory (t : InMemoryTuples) : Run (List (Except BlockError (List String))) := do
  let n ← div t.strings.length t.width
  attemptAll (fun i => tuple t (UInt64.ofNat i)) (List.range n)

section Tuples

variable {t : InMemoryTuples} (hn : t.strings.length < 2 ^ 64)
include hn

/-- **A window is given at the exact positions at which it lies in the list.** -/
theorem window_eq (i : UInt64) : window t i = t.get? i := by
  rw [window, InMemoryTuples.get?]
  by_cases h : i.toNat + t.width < 2 ^ 64
  · rw [if_pos h]
  · rw [if_neg h, InMemoryTuples.slice?, if_neg (by omega)]

/-- **A tuple is given if it is there, and otherwise the run traps**, by a product that does not fit or by a
slice that leaves the list. -/
theorem mirrors_tuple (i : UInt64) : Mirrors (tuple t i) (t.tuple? i) := by
  have hwidth := t.width_pos
  have hnext : (i.toNat + 1) * t.width = i.toNat * t.width + t.width := Nat.succ_mul _ _
  by_cases hin : (i.toNat + 1) * t.width ≤ t.strings.length
  · have hi := Nat.le_mul_of_pos_right (i.toNat + 1) hwidth
    have hslice : InMemoryTuples.slice? t.strings (i.toNat * t.width) ((i.toNat + 1) * t.width) =
        some (t.window (i.toNat * t.width)) := by
      rw [InMemoryTuples.slice?, if_pos ⟨by omega, hin⟩, hnext, Nat.add_sub_cancel_left,
        InMemoryTuples.window]
    rw [tuple, mul_of_lt (by omega), pure_then, add_of_lt (by omega), pure_then, mul_of_lt (by omega),
      pure_then, strings, InMemoryTuples.tuple?, hslice]
    exact .value _
  · have hnone : InMemoryTuples.slice? t.strings (i.toNat * t.width) ((i.toNat + 1) * t.width) = none :=
      if_neg fun h => hin h.2
    rw [InMemoryTuples.tuple?, hnone, tuple]
    -- the first product, the next number, the second product or the slice does not fit
    by_cases hstart : i.toNat * t.width < 2 ^ 64
    · rw [mul_of_lt hstart, pure_then]
      by_cases hone : i.toNat + 1 < 2 ^ 64
      · rw [add_of_lt hone, pure_then]
        by_cases hstop : (i.toNat + 1) * t.width < 2 ^ 64
        · rw [mul_of_lt hstop, pure_then, strings, hnone]
          exact .trapped _
        · rw [mul, if_neg hstop]
          exact .trapped _
      · rw [add, addIn, if_neg hone]
        exact .trapped _
    · rw [mul, if_neg hstart]
      exact .trapped _

/-- **Walking through all tuples does not trap**: it asks for those that are there. -/
theorem tuplesInMemory_eq : tuplesInMemory t = pure (t.toList.map .ok) := by
  have hwidth : t.width ≠ 0 := Nat.ne_of_gt t.width_pos
  have hlength : t.length ≤ t.strings.length := Nat.div_le_self _ _
  have hall : ∀ i ∈ List.range t.length,
      tuple t (UInt64.ofNat i) = ends (.ok (t.window (i * t.width))) := by
    intro i hi
    have hlt : i < t.length := List.mem_range.1 hi
    have hnat : (UInt64.ofNat i).toNat = i := UInt64.toNat_ofNat_of_lt' (by
      show i < 2 ^ 64
      omega)
    refine (mirrors_tuple hn _).eq_pure_iff.2 ?_
    rw [t.tuple?_eq, hnat, t.getElem?_toList, if_pos hlt]
  rw [tuplesInMemory, div_of_ne hwidth, pure_then]
  show attemptAll _ (List.range t.length) = _
  rw [attemptAll_eq hall, InMemoryTuples.toList, List.map_map]
  rfl

end Tuples

/-! ## Comparing and exchanging -/

/-- Compares the last `left` pairs of two windows, after `k` pairs that are equal. -/
def lessFrom (l : List String) (i j : Nat) : Nat → Nat → Run Bool
  | 0, _ => pure false
  | left + 1, k => do
    let p ← add i k
    let a ← element l p
    let q ← add j k
    let b ← element l q
    if a = b then lessFrom l i j left (k + 1) else pure (Text.le a b)

/-- Whether the window at position `i` comes before the one at position `j`. -/
def less (t : InMemoryTuples) (i j : UInt64) : Run Bool :=
  lessFrom t.strings i.toNat j.toNat t.width 0

/-- Exchanges the last `left` pairs of two windows, after `k` pairs that are exchanged. -/
def exchangeFrom (i j : Nat) : Nat → Nat → List String → Run (List String)
  | 0, _, l => pure l
  | left + 1, k, l => do
    let p ← add i k
    let q ← add j k
    let a ← element l p
    let b ← element l q
    exchangeFrom i j left (k + 1) ((l.set p b).set q a)

/-- The strings with the windows at two positions exchanged. -/
def swap (t : InMemoryTuples) (i j : UInt64) : Run (List String) :=
  exchangeFrom i.toNat j.toNat t.width 0 t.strings

/-- A position is increased only after it was in the list, so that it fits. -/
theorem mirrors_lessFrom {l : List String} (hl : l.length < 2 ^ 64) {i j left k : Nat} (hi : i + k < 2 ^ 64)
    (hj : j + k < 2 ^ 64) :
    Mirrors (lessFrom l i j left k) (InMemoryTuples.lessFrom l left (i + k) (j + k)) := by
  induction left generalizing k with
  | zero => exact .value false
  | succ left ih =>
      rw [lessFrom, InMemoryTuples.lessFrom, add_of_lt hi, pure_then, add_of_lt hj]
      by_cases hin : i + k < l.length
      · rw [element_of_lt hin, pure_then, pure_then, List.getElem?_eq_getElem hin]
        by_cases hjn : j + k < l.length
        · rw [element_of_lt hjn, pure_then, List.getElem?_eq_getElem hjn]
          dsimp only
          by_cases heq : l[i + k] = l[j + k]
          · rw [if_pos heq, if_pos heq]
            exact ih (by omega) (by omega)
          · rw [if_neg heq, if_neg heq]
            exact .value _
        · rw [element_of_le (Nat.le_of_not_lt hjn), List.getElem?_eq_none (Nat.le_of_not_lt hjn)]
          exact .trapped _
      · rw [element_of_le (Nat.le_of_not_lt hin), List.getElem?_eq_none (Nat.le_of_not_lt hin)]
        exact .trapped _

theorem mirrors_exchangeFrom {i j left k : Nat} {l : List String} (hl : l.length < 2 ^ 64)
    (hi : i + k < 2 ^ 64) (hj : j + k < 2 ^ 64) :
    Mirrors (exchangeFrom i j left k l) (InMemoryTuples.exchangeFrom l left (i + k) (j + k)) := by
  induction left generalizing k l with
  | zero => exact .value l
  | succ left ih =>
      rw [exchangeFrom, InMemoryTuples.exchangeFrom, InMemoryTuples.exchange?, add_of_lt hi, pure_then,
        add_of_lt hj, pure_then]
      by_cases hin : i + k < l.length
      · rw [element_of_lt hin, pure_then, List.getElem?_eq_getElem hin]
        by_cases hjn : j + k < l.length
        · rw [element_of_lt hjn, pure_then, List.getElem?_eq_getElem hjn]
          refine ih ?_ (by omega) (by omega)
          rw [List.length_set, List.length_set]
          exact hl
        · rw [element_of_le (Nat.le_of_not_lt hjn), List.getElem?_eq_none (Nat.le_of_not_lt hjn)]
          exact .trapped _
      · rw [element_of_le (Nat.le_of_not_lt hin), List.getElem?_eq_none (Nat.le_of_not_lt hin)]
        exact .trapped _

section Windows

variable {t : InMemoryTuples} (hn : t.strings.length < 2 ^ 64) (i j : UInt64)
include hn

/-- **Comparing traps exactly where it reaches a place outside the list.** -/
theorem mirrors_less : Mirrors (less t i j) (t.less? i j) :=
  mirrors_lessFrom hn i.toNat_lt j.toNat_lt

/-- **Exchanging traps exactly where it reaches a place outside the list.** -/
theorem mirrors_swap : Mirrors (swap t i j) ((t.swap? i j).map InMemoryTuples.strings) := by
  have hstrings : (t.swap? i j).map InMemoryTuples.strings =
      InMemoryTuples.exchangeFrom t.strings t.width i.toNat j.toNat := by
    rw [InMemoryTuples.swap?]
    split
    · next hs => exact hs.symm
    · next hs => exact hs.symm
  rw [hstrings]
  exact mirrors_exchangeFrom hn i.toNat_lt j.toNat_lt

end Windows

end SeriesBlock.Machine
