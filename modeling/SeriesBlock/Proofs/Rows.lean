/-!
# Rows of equal width

A list of rows of one width and the flat list of their elements say the same: the row with number `i` is what
stands at `i` times the width (`take_drop_flatMap`, `take_drop_flatten`), and taking the flat list apart group by
group gives whole rows that flatten to it (`flatten_groups`, `length_of_mem_groups`).
-/

set_option autoImplicit false

namespace SeriesBlock

variable {α β : Type} {w : Nat}

section Rows

variable {f : α → List β}

theorem length_flatMap_of_length {l : List α} (h : ∀ a ∈ l, (f a).length = w) :
    (l.flatMap f).length = l.length * w := by
  induction l with
  | nil => exact (Nat.zero_mul w).symm
  | cons a l ih =>
      rw [List.flatMap_cons, List.length_append, h a List.mem_cons_self,
        ih fun x hx => h x (List.mem_cons_of_mem a hx), List.length_cons, Nat.succ_mul, Nat.add_comm]

/-- The run at a position, out of runs of the same width. -/
theorem take_drop_flatMap {l : List α} (h : ∀ a ∈ l, (f a).length = w) {i : Nat}
    (hi : i < l.length) : ((l.flatMap f).drop (i * w)).take w = f l[i] := by
  induction l generalizing i with
  | nil => cases hi
  | cons a l ih =>
      have ha := h a List.mem_cons_self
      -- a later run is found behind the first one
      cases i with
      | zero =>
          rw [Nat.zero_mul, List.drop_zero, List.flatMap_cons, List.take_left' ha]
          rfl
      | succ i =>
          rw [Nat.succ_mul, Nat.add_comm, ← List.drop_drop, List.flatMap_cons, List.drop_left' ha]
          exact ih (fun x hx => h x (List.mem_cons_of_mem a hx)) (Nat.lt_of_succ_lt_succ hi)

theorem length_flatten_of_length {rows : List (List α)} (h : ∀ x ∈ rows, x.length = w) :
    rows.flatten.length = rows.length * w := by
  rw [← List.flatMap_id]
  exact length_flatMap_of_length h

theorem take_drop_flatten {rows : List (List α)} (h : ∀ x ∈ rows, x.length = w) {i : Nat}
    (hi : i < rows.length) : (rows.flatten.drop (i * w)).take w = rows[i] := by
  rw [← List.flatMap_id]
  exact take_drop_flatMap h hi

end Rows

/-! ## Groups -/

/-- Takes groups of `w` elements off a list until a group is empty. -/
def groups (w : Nat) (l : List α) : List (List α) :=
  if l.take w = [] then [] else l.take w :: groups w (l.drop w)
  termination_by l.length
  decreasing_by
    rename_i h
    rw [List.take_eq_nil_iff, not_or, ← List.length_eq_zero_iff] at h
    rw [List.length_drop]
    omega

/-- Nothing is lost in groups that are not empty. -/
theorem flatten_groups (hw : 0 < w) (l : List α) : (groups w l).flatten = l := by
  induction l using groups.induct w with
  | case1 l hnil =>
      rw [groups, if_pos hnil]
      rw [List.take_eq_nil_iff] at hnil
      rcases hnil with rfl | rfl
      · cases hw
      · rfl
  | case2 l hne ih => rw [groups, if_neg hne, List.flatten_cons, ih, List.take_append_drop]

/-- A list of whole groups is taken apart into groups of that width. -/
theorem length_of_mem_groups {l : List α} (hd : w ∣ l.length) : ∀ x ∈ groups w l, x.length = w := by
  induction l using groups.induct w with
  | case1 l hnil =>
      rw [groups, if_pos hnil]
      simp
  | case2 l hne ih =>
      rw [groups, if_neg hne]
      rw [List.take_eq_nil_iff, not_or] at hne
      have hle : w ≤ l.length := Nat.le_of_dvd (List.length_pos_iff.2 hne.2) hd
      have hmore : w ∣ (l.drop w).length := by
        rw [List.length_drop]
        exact Nat.dvd_sub hd (Nat.dvd_refl w)
      intro x hx
      rcases List.mem_cons.1 hx with rfl | hx
      · rw [List.length_take, Nat.min_eq_left hle]
      · exact ih hmore x hx

end SeriesBlock
