import SeriesBlock.Index
import SeriesBlock.Proofs.Steps
import SeriesBlock.Proofs.Text

/-!
# Keys of names

A key joins names with a byte that no text contains, so it is split where it was joined
(`Key.split_join`), and a list of names is read back from its key (`namesOfKey_keyOf`). Conversely the
parts of any key join to it (`Key.join_split`), so a key from which names are read is the key of these
names (`namesOfKey_eq_ok_iff`). Different lists have different keys (`keyOf_injective`), except that the
empty list shares the empty key with the list of one empty name (`keyOf_eq_keyOf_iff`).
-/

set_option autoImplicit false

namespace SeriesBlock

/-! ## Joining and splitting -/

namespace Key

/-- A part without separators ends at the separator after it. -/
theorem split_append {part : Bytes} (h : separator ∉ part) (rest : Bytes) :
    split (part ++ separator :: rest) = part :: split rest := by
  induction part with
  | nil =>
      rw [List.nil_append, split, if_pos rfl]
  | cons b part ih =>
      have hb : b ≠ separator := fun e => h (e ▸ List.mem_cons_self)
      have hpart : separator ∉ part := fun hm => h (List.mem_cons_of_mem b hm)
      rw [List.cons_append, split, if_neg hb, ih hpart]

theorem split_of_not_mem {part : Bytes} (h : separator ∉ part) : split part = [part] := by
  induction part with
  | nil => rfl
  | cons b part ih =>
      have hb : b ≠ separator := fun e => h (e ▸ List.mem_cons_self)
      have hpart : separator ∉ part := fun hm => h (List.mem_cons_of_mem b hm)
      rw [split, if_neg hb, ih hpart]

/-- **A key is split where it was joined**, if no part contains a separator. -/
theorem split_join {parts : List Bytes} (hne : parts ≠ []) (h : ∀ p ∈ parts, separator ∉ p) :
    split (join parts) = parts := by
  induction parts with
  | nil => exact absurd rfl hne
  | cons part more ih =>
      have hpart := h part List.mem_cons_self
      cases more with
      | nil => exact split_of_not_mem hpart
      | cons next more =>
          show split (part ++ separator :: join (next :: more)) = _
          rw [split_append hpart, ih (List.cons_ne_nil next more)
            fun p hp => h p (List.mem_cons_of_mem part hp)]

theorem split_ne_nil (key : Bytes) : split key ≠ [] := by
  cases key with
  | nil => exact List.cons_ne_nil _ _
  | cons b rest =>
      rw [split]
      split
      · exact List.cons_ne_nil _ _
      · split
        · exact List.cons_ne_nil _ _
        · exact List.cons_ne_nil _ _

/-- A byte in front of the first part is in front of the key. -/
theorem join_cons_cons (b : UInt8) (part : Bytes) (more : List Bytes) :
    join ((b :: part) :: more) = b :: join (part :: more) := by
  cases more with
  | nil => rfl
  | cons next more => rfl

/-- **The parts of a key join to it.** -/
theorem join_split (key : Bytes) : join (split key) = key := by
  induction key with
  | nil => rfl
  | cons b rest ih =>
      obtain ⟨part, more, hsplit⟩ := List.exists_cons_of_ne_nil (split_ne_nil rest)
      rw [split]
      by_cases hb : b = separator
      -- a separator ends an empty part
      · rw [if_pos hb, hb, hsplit]
        show separator :: join (part :: more) = _
        rw [← hsplit, ih]
      · rw [if_neg hb, hsplit]
        show join ((b :: part) :: more) = _
        rw [join_cons_cons, ← hsplit, ih]

/-- A key is at least as long as the number of its separators. -/
theorem length_le_join (parts : List Bytes) : parts.length ≤ (join parts).length + 1 := by
  induction parts with
  | nil => exact Nat.zero_le _
  | cons part more ih =>
      cases more with
      | nil => exact Nat.le_add_left 1 _
      | cons next more =>
          show _ ≤ (part ++ separator :: join (next :: more)).length + 1
          simp only [List.length_append, List.length_cons] at ih ⊢
          omega

end Key

/-! ## The order of lists of strings -/

namespace Text

theorem leFields_trans (a b c : List String) (hab : leFields a b = true)
    (hbc : leFields b c = true) : leFields a c = true := by
  rw [leFields, decide_eq_true_iff] at hab hbc ⊢
  exact List.le_trans hab hbc

theorem leFields_total (a b : List String) : (leFields a b || leFields b a) = true := by
  rw [leFields, leFields, Bool.or_eq_true, decide_eq_true_iff, decide_eq_true_iff]
  exact List.le_total _ _

theorem pairwise_mergeSort_leFields (l : List (List String)) :
    (l.mergeSort leFields).Pairwise fun a b => leFields a b = true :=
  List.pairwise_mergeSort leFields_trans leFields_total l

end Text

/-! ## Names -/

namespace Index

theorem separator_not_mem_of_mem_map {names : List String} {p : Bytes}
    (h : p ∈ names.map Utf8.encode) : Key.separator ∉ p := by
  obtain ⟨s, -, rfl⟩ := List.mem_map.1 h
  exact Utf8.ff_not_mem_encode s

theorem split_keyOf {names : List String} (hne : names ≠ []) :
    Key.split (keyOf names) = names.map Utf8.encode :=
  Key.split_join (mt List.map_eq_nil_iff.1 hne) fun _ => separator_not_mem_of_mem_map

/-- Different lists of names have different keys. -/
theorem keyOf_injective {names names' : List String} (hne : names ≠ []) (hne' : names' ≠ [])
    (h : keyOf names = keyOf names') : names = names' := by
  have hmap : names.map Utf8.encode = names'.map Utf8.encode := by
    rw [← split_keyOf hne, ← split_keyOf hne', h]
  exact (List.map_inj_right fun _ _ => Utf8.encode_injective).1 hmap

theorem length_le_keyOf (names : List String) : names.length ≤ (keyOf names).length + 1 := by
  have h := Key.length_le_join (names.map Utf8.encode)
  rw [List.length_map] at h
  exact h

/-- **The names are read back from a key.** -/
theorem namesOfKey_keyOf {names : List String} (hne : names ≠ []) :
    namesOfKey (keyOf names) = .ok names := by
  rw [namesOfKey, split_keyOf hne, List.mapM_map]
  refine (except_mapM_eq_ok (g := id) ?_).trans (congrArg Except.ok (List.map_id names))
  intro s _
  rw [Function.comp_apply, Utf8.decode_encode]
  rfl

/-- **A key from which names are read is the key of these names**, of which there is at least one. -/
theorem namesOfKey_eq_ok_iff {key : Bytes} {names : List String} :
    namesOfKey key = .ok names ↔ names ≠ [] ∧ keyOf names = key := by
  constructor
  · intro h
    have hparts : names.map Utf8.encode = Key.split key := by
      refine except_map_of_mapM (fun part s hs => ?_) h
      cases hd : Utf8.decode part with
      | ok t =>
          rw [hd] at hs
          cases hs
          exact Utf8.encode_of_decode hd
      | error fault =>
          rw [hd] at hs
          cases hs
    constructor
    · rintro rfl
      exact Key.split_ne_nil key hparts.symm
    · rw [keyOf, hparts, Key.join_split]
  · rintro ⟨hne, rfl⟩
    exact namesOfKey_keyOf hne

/-- The empty list shares its key with the list of one empty name. -/
theorem keyOf_nil : keyOf [] = keyOf [""] :=
  rfl

/-- **Lists of names share a key only if they are equal**, but for the empty list and the list of one
empty name. -/
theorem keyOf_eq_keyOf_iff {names names' : List String} :
    keyOf names = keyOf names' ↔
      names = names' ∨ names = [] ∧ names' = [""] ∨ names = [""] ∧ names' = [] := by
  constructor
  · intro h
    by_cases hne : names = []
    · by_cases hne' : names' = []
      · exact Or.inl (hne.trans hne'.symm)
      · rw [hne, keyOf_nil] at h
        exact Or.inr (Or.inl ⟨hne, (keyOf_injective (List.cons_ne_nil _ _) hne' h).symm⟩)
    · by_cases hne' : names' = []
      · rw [hne', keyOf_nil] at h
        exact Or.inr (Or.inr ⟨keyOf_injective hne (List.cons_ne_nil _ _) h, hne'⟩)
      · exact Or.inl (keyOf_injective hne hne' h)
  · rintro (rfl | ⟨rfl, rfl⟩ | ⟨rfl, rfl⟩)
    · rfl
    · rfl
    · rfl

/-- The names in a key, none if it is not text. -/
def namesIn (key : Bytes) : List String :=
  ((namesOfKey key).toOption).getD []

theorem namesIn_keyOf {names : List String} (hne : names ≠ []) : namesIn (keyOf names) = names := by
  rw [namesIn, namesOfKey_keyOf hne]
  rfl

/-- **The names in keys are sorted**, if there are names in every key. -/
theorem listing_eq_ok {keys : List Bytes} (hread : ∀ key ∈ keys, ∃ names, namesOfKey key = .ok names) :
    listing keys = .ok ((keys.map namesIn).mergeSort Text.leFields) := by
  rw [listing, except_mapM_eq_ok (g := namesIn)]
  · rfl
  · intro key hkey
    obtain ⟨names, hnames⟩ := hread key hkey
    rw [namesIn, hnames]
    rfl

/-- **The names of keys are listed once each, in ascending order**, in whatever order the keys
come. -/
theorem listing_of_perm {keys : List Bytes} {lists : List (List String)}
    (hperm : keys.Perm (lists.map keyOf)) (hne : ∀ names ∈ lists, names ≠ []) :
    ∃ listed, listing keys = .ok listed ∧ listed.Perm lists ∧
      listed.Pairwise fun a b => Text.leFields a b = true := by
  -- every key is that of a list of names
  have hread : ∀ key ∈ keys, ∃ names, namesOfKey key = .ok names := by
    intro key hkey
    obtain ⟨names, hn, rfl⟩ := List.mem_map.1 (hperm.mem_iff.1 hkey)
    exact ⟨names, namesOfKey_keyOf (hne names hn)⟩
  refine ⟨(keys.map namesIn).mergeSort Text.leFields, listing_eq_ok hread, ?_, ?_⟩
  · have hmap : (lists.map keyOf).map namesIn = lists := by
      rw [List.map_map]
      exact (List.map_congr_left fun names hn => namesIn_keyOf (hne names hn)).trans
        (List.map_id lists)
    have hnames := hperm.map namesIn
    rw [hmap] at hnames
    exact (List.mergeSort_perm _ _).trans hnames
  · exact Text.pairwise_mergeSort_leFields _

end Index

end SeriesBlock
