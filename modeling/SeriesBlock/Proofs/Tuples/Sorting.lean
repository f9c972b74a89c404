import Mathlib.Data.List.Chain
import SeriesBlock.Proofs.Keys
import SeriesBlock.Proofs.Tuples.Windows

/-!
# Sorting tuples

Sorting takes the flat list apart group by group, sorts the groups and flattens them again. As groups of the
right width are the tuples, and flattened tuples are taken apart where they were joined, the tuples of the
sorted value are the sorted tuples (`toList_sort`). Everything else about sorting is a fact about lists of
tuples: they are the same ones (`perm_toList_sort`), in ascending order (`ascending_sort`), and there is only one
such list (`sort_eq_of_perm`).

The order is the one that windows are compared by: tuples ascend exactly if no tuple comes before the one ahead
of it (`ascending_iff_neighbours`). The main statement is `sorting_keeps_tuples`.
-/

set_option autoImplicit false

namespace SeriesBlock

theorem Text.leFields_iff_not_fieldsBefore {a b : List String} :
    leFields a b = true ↔ ¬ FieldsBefore b a := by
  rw [leFields, decide_eq_true_iff]
  exact List.not_lt.symm

namespace InMemoryTuples

open Text

/-- No tuple comes before one ahead of it. -/
def Ascending (t : InMemoryTuples) : Prop :=
  t.toList.Pairwise fun a b => ¬ FieldsBefore b a

instance (t : InMemoryTuples) : Decidable t.Ascending :=
  inferInstanceAs (Decidable (t.toList.Pairwise _))

/-- Where the tuple with a number begins in the flat list. -/
def start (t : InMemoryTuples) (n : Nat) : UInt64 :=
  UInt64.ofNat (n * t.width)

section Sorted

variable (t : InMemoryTuples)

/-- **The tuples of the sorted value are the sorted tuples.** -/
theorem toList_sort : t.sort.toList = t.toList.mergeSort leFields := by
  have hflat : t.sort.strings = (t.toList.mergeSort leFields).flatten := rfl
  apply toList_eq_of_flatten hflat
  intro x hx
  have hmem : x ∈ t.toList := List.mem_mergeSort.1 hx
  show x.length = t.width
  exact length_of_mem_toList hmem

theorem perm_toList_sort : t.sort.toList.Perm t.toList := by
  rw [toList_sort]
  exact List.mergeSort_perm t.toList leFields

theorem length_sort : t.sort.length = t.length := by
  rw [← length_toList, (perm_toList_sort t).length_eq, length_toList]

theorem ascending_sort : t.sort.Ascending := by
  rw [Ascending, toList_sort]
  apply (pairwise_mergeSort_leFields t.toList).imp
  intro a b hle
  exact leFields_iff_not_fieldsBefore.1 hle

/-- What ascends already is sorted. -/
theorem sort_of_ascending (h : t.Ascending) : t.sort = t := by
  apply eq_of_toList (show t.sort.arity = t.arity from rfl)
  rw [toList_sort]
  apply List.mergeSort_of_pairwise
  apply List.Pairwise.imp _ h
  intro a b hnot
  exact leFields_iff_not_fieldsBefore.2 hnot

/-- **There is one way to sort tuples**, in whatever order they came. -/
theorem sort_eq_of_perm {t u : InMemoryTuples} (harity : u.arity = t.arity)
    (hperm : u.toList.Perm t.toList) : u.sort = t.sort := by
  apply eq_of_toList (show u.sort.arity = t.sort.arity from harity)
  have hsame : u.sort.toList.Perm t.sort.toList :=
    (perm_toList_sort u).trans (hperm.trans (perm_toList_sort t).symm)
  apply hsame.eq_of_pairwise _ (ascending_sort u) (ascending_sort t)
  intro a b _ _ hba hab
  exact eq_of_not_fieldsBefore hab hba

end Sorted

/-! ## Neighbours -/

section Neighbours

variable {t : InMemoryTuples}

/-- Where a tuple of the list begins is a position. -/
theorem toNat_start (hsize : t.strings.length < 2 ^ 64) {n : Nat} (hn : n < t.length) :
    (t.start n).toNat = n * t.width := by
  have hin := t.lt_length_iff.1 hn
  exact UInt64.toNat_ofNat_of_lt' (show n * t.width < 2 ^ 64 by omega)

theorem inRange_start (hsize : t.strings.length < 2 ^ 64) {n : Nat} (hn : n < t.length) :
    t.InRange (t.start n) := by
  rw [InRange, toNat_start hsize hn]
  exact t.lt_length_iff.1 hn

theorem window_start (hsize : t.strings.length < 2 ^ 64) {n : Nat} (hn : n < t.toList.length) :
    t.window (t.start n).toNat = t.toList[n] := by
  have hn' : n < t.length := by rwa [length_toList] at hn
  apply Option.some.inj
  rw [← List.getElem?_eq_getElem hn, getElem?_toList, if_pos hn', toNat_start hsize hn']

/-- Comparing a tuple with the one ahead of it. -/
theorem less?_start (hsize : t.strings.length < 2 ^ 64) {n : Nat} (hn : n + 1 < t.toList.length) :
    t.less? (t.start (n + 1)) (t.start n) =
      some (decide (FieldsBefore t.toList[n + 1] t.toList[n])) := by
  have hn' : n + 1 < t.length := by rwa [length_toList] at hn
  rw [less?_of_inRange (inRange_start hsize hn') (inRange_start hsize (Nat.lt_of_succ_lt hn')),
    window_start hsize hn, window_start hsize (Nat.lt_of_succ_lt hn)]

/-- **Tuples ascend exactly if none comes before the one ahead of it.** -/
theorem ascending_iff_neighbours (hsize : t.strings.length < 2 ^ 64) :
    t.Ascending ↔ ∀ n, n + 1 < t.length → t.less? (t.start (n + 1)) (t.start n) = some false := by
  have htrans : Trans (fun a b => leFields a b = true) (fun a b => leFields a b = true)
      fun a b => leFields a b = true := ⟨fun {a b c} => leFields_trans a b c⟩
  -- the order passes on from neighbour to neighbour
  have hchain : t.Ascending ↔ t.toList.IsChain fun a b => leFields a b = true := by
    rw [List.isChain_iff_pairwise, Ascending]
    simp only [leFields_iff_not_fieldsBefore]
  rw [hchain, List.isChain_iff_getElem, ← t.length_toList]
  refine forall_congr' fun n => forall_congr' fun hn => ?_
  rw [less?_start hsize hn, leFields_iff_not_fieldsBefore, Option.some.injEq,
    decide_eq_false_iff_not]

end Neighbours

/-- **Sorting keeps the tuples and puts them in order.** Taking the flat list apart group by group, sorting the
groups and flattening them keeps arity and length; asked for by number, the tuples are those of the list before,
each whole, in another order, in which none comes before one ahead of it. That is so of a value exactly if
comparing each tuple with the one ahead of it says no. Sorting again changes nothing, and values of the same
tuples are sorted to the same value. -/
theorem sorting_keeps_tuples (t : InMemoryTuples) :
    (t.sort.arity = t.arity ∧ t.sort.length = t.length) ∧
      t.sort.strings = ((groups t.width t.strings).mergeSort leFields).flatten ∧
      (∀ i : UInt64, t.tuple? i = t.toList[i.toNat]? ∧ t.sort.tuple? i = t.sort.toList[i.toNat]?) ∧
      t.sort.toList.Perm t.toList ∧
      t.sort.Ascending ∧
      (∀ u : InMemoryTuples, u.strings.length < 2 ^ 64 →
        (u.Ascending ↔
          ∀ n, n + 1 < u.length → u.less? (u.start (n + 1)) (u.start n) = some false)) ∧
      t.sort.sort = t.sort ∧
      ∀ u : InMemoryTuples, u.arity = t.arity → u.toList.Perm t.toList → u.sort = t.sort := by
  refine ⟨⟨rfl, length_sort t⟩, ?_, ?_, perm_toList_sort t, ascending_sort t, ?_, ?_, ?_⟩
  · rw [← toList_eq_groups]
    rfl
  · intro i
    exact ⟨t.tuple?_eq i, t.sort.tuple?_eq i⟩
  · intro u hsize
    exact ascending_iff_neighbours hsize
  · exact sort_of_ascending _ (ascending_sort t)
  · intro u harity hperm
    exact sort_eq_of_perm harity hperm

/-- Three pairs, of which two agree in the first field. -/
theorem sorting_keeps_tuples_pairs :
    let t : InMemoryTuples := ⟨2, ["b", "1", "a", "2", "a", "1"], by decide, by decide⟩
    let u : InMemoryTuples := ⟨2, ["a", "1", "a", "2", "b", "1"], by decide, by decide⟩
    u.Ascending ∧ ¬ t.Ascending ∧ u.toList.Perm t.toList ∧ t.sort = u ∧
      (∀ n, n + 1 < u.length → u.less? (u.start (n + 1)) (u.start n) = some false) ∧
      ¬ ∀ n, n + 1 < t.length → t.less? (t.start (n + 1)) (t.start n) = some false := by
  intro t u
  have hu : u.Ascending := by decide
  have ht : ¬ t.Ascending := by decide
  have hperm : u.toList.Perm t.toList := by decide
  obtain ⟨-, -, -, -, -, hneighbours, -, hsame⟩ := sorting_keeps_tuples t
  refine ⟨hu, ht, hperm, ?_, (hneighbours u (by decide)).1 hu, ?_⟩
  · rw [← hsame u rfl hperm]
    exact sort_of_ascending u hu
  · intro hless
    exact ht ((hneighbours t (by decide)).2 hless)

end InMemoryTuples

end SeriesBlock
