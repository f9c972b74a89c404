import SeriesBlock.Proofs.Classes
import SeriesBlock.Proofs.Keys

/-!
# Listed label indices

What the listing of label indices says of look-ups. A listing succeeds exactly if every key is that of a
list of names (`listing_eq_ok_iff`). So it is strictly ascending (`strictlyAscending_of_listing`), and it
has a list of names exactly if the key of the list is there (`mem_listing_iff`), which is when a look-up of
its values does not miss (`isMissing_labelValues_iff`). The main statement is `listing_is_faithful`.
-/

set_option autoImplicit false

namespace SeriesBlock

namespace Text

/-- Lists of names in strictly ascending order, name by name and by bytes within a name. -/
def StrictlyAscending (lists : List (List String)) : Prop :=
  lists.Pairwise fun a b => a.map Utf8.encode < b.map Utf8.encode

/-- Different lists in ascending order are in strictly ascending order. -/
theorem strictlyAscending_of_nodup {lists : List (List String)}
    (h : lists.Pairwise fun a b => leFields a b = true) (hnodup : lists.Nodup) :
    StrictlyAscending lists := by
  refine (h.and hnodup).imp ?_
  rintro a b ⟨hle, hne⟩
  rw [leFields, decide_eq_true_iff] at hle
  apply Std.lt_of_le_of_ne hle
  intro heq
  exact hne ((List.map_inj_right fun _ _ => Utf8.encode_injective).1 heq)

end Text

namespace Index

/-! ## Listings -/

section Listing

variable {keys : List Bytes} {listed : List (List String)}

/-- **A listing sorts the lists that its keys are of.** It succeeds on nothing but keys of lists. -/
theorem listing_eq_ok_iff :
    listing keys = .ok listed ↔ ∃ lists : List (List String), listed = lists.mergeSort Text.leFields ∧
      lists.map keyOf = keys ∧ ∀ names ∈ lists, names ≠ [] := by
  rw [listing]
  constructor
  · intro h
    cases hr : keys.mapM namesOfKey with
    | error e =>
        rw [hr] at h
        cases h
    | ok lists =>
        rw [hr] at h
        cases h
        refine ⟨lists, rfl, ?_, ?_⟩
        · apply except_map_of_mapM (fun key names hnames => ?_) hr
          exact (namesOfKey_eq_ok_iff.1 hnames).2
        · intro names hmem
          have hread : .ok names ∈ keys.map namesOfKey := by
            rw [except_mapM_eq_ok_iff.1 hr]
            exact List.mem_map_of_mem hmem
          obtain ⟨key, -, hkey⟩ := List.mem_map.1 hread
          exact (namesOfKey_eq_ok_iff.1 hkey).1
  · rintro ⟨lists, rfl, rfl, hlists⟩
    have hread : (lists.map keyOf).mapM namesOfKey = .ok lists := by
      rw [except_mapM_eq_ok_iff, List.map_map]
      apply List.map_congr_left
      intro names hmem
      exact namesOfKey_keyOf (hlists names hmem)
    rw [hread]
    rfl

/-- **A list of names is listed exactly if its key is.** -/
theorem mem_listing_iff (h : listing keys = .ok listed) {names : List String} (hne : names ≠ []) :
    names ∈ listed ↔ keyOf names ∈ keys := by
  obtain ⟨lists, rfl, rfl, hlists⟩ := listing_eq_ok_iff.1 h
  rw [List.mem_mergeSort]
  constructor
  · intro hmem
    exact List.mem_map_of_mem hmem
  · intro hkey
    obtain ⟨names', hmem, heq⟩ := List.mem_map.1 hkey
    rw [keyOf_injective (hlists names' hmem) hne heq] at hmem
    exact hmem

/-- **A listing of different keys is strictly ascending.** -/
theorem strictlyAscending_of_listing (hkeys : keys.Nodup) (h : listing keys = .ok listed) :
    Text.StrictlyAscending listed := by
  obtain ⟨lists, rfl, rfl, -⟩ := listing_eq_ok_iff.1 h
  apply Text.strictlyAscending_of_nodup (Text.pairwise_mergeSort_leFields lists)
  rw [(List.mergeSort_perm lists Text.leFields).nodup_iff]
  exact hkeys.of_map

end Listing

/-! ## Look-ups -/

variable (i : Index)

theorem isMissing_labelValues_iff (names : List String) :
    IsMissing (i.labelValues names).result ↔ keyOf names ∉ i.labels.keys := by
  rw [← OffsetMap.get?_eq_none_iff]
  exact (i.classified_labelValues names).missing_iff

/-- **Label indices are listed faithfully.** A listing that succeeds is strictly ascending, and it has a
list of names exactly if a look-up of its values does not miss. Lists of names share a key only if they
are equal, and so do pairs of a name and a value, but for the empty list: its values are those of the list
of one empty name. -/
theorem listing_is_faithful (i : Index) :
    (∀ listed, i.labelIndices.result = .ok listed →
      Text.StrictlyAscending listed ∧
      ∀ names, names ≠ [] → (names ∈ listed ↔ ¬ IsMissing (i.labelValues names).result)) ∧
    (∀ names names', keyOf names = keyOf names' ↔
      names = names' ∨ names = [] ∧ names' = [""] ∨ names = [""] ∧ names' = []) ∧
    (∀ name value name' value',
      keyOf [name, value] = keyOf [name', value'] ↔ name = name' ∧ value = value') ∧
    i.labelValues [] = i.labelValues [""] := by
  refine ⟨?_, fun _ _ => keyOf_eq_keyOf_iff, ?_, rfl⟩
  · intro listed h
    refine ⟨strictlyAscending_of_listing i.labels.nodup h, ?_⟩
    intro names hne
    rw [isMissing_labelValues_iff, not_not]
    exact mem_listing_iff h hne
  · intro name value name' value'
    rw [keyOf_eq_keyOf_iff]
    simp

/-- An index with three label indices. -/
def ofThreeLists : Index :=
  ⟨[], ⟨[]⟩, .ofList [(keyOf [""], 4), (keyOf ["a", ""], 4), (keyOf ["b"], 4)], .empty, {}⟩

theorem listing_is_faithful_ofThreeLists :
    ofThreeLists.labelIndices.result = .ok [[""], ["a", ""], ["b"]] ∧
      Text.StrictlyAscending [[""], ["a", ""], ["b"]] ∧
      ¬ IsMissing (ofThreeLists.labelValues ["a", ""]).result ∧
      IsMissing (ofThreeLists.labelValues ["a"]).result := by
  have hlisted : ofThreeLists.labelIndices.result = .ok [[""], ["a", ""], ["b"]] := by
    have hsorted : [[""], ["a", ""], ["b"]].Pairwise fun a b => Text.leFields a b = true := by decide
    refine listing_eq_ok_iff.2 ⟨[[""], ["a", ""], ["b"]], ?_, by decide, by decide⟩
    exact (List.mergeSort_of_pairwise hsorted).symm
  obtain ⟨hascending, hmem⟩ := (listing_is_faithful ofThreeLists).1 _ hlisted
  refine ⟨hlisted, hascending, ?_, ?_⟩
  · exact (hmem ["a", ""] (by decide)).1 (by decide)
  · by_contra hfound
    exact absurd ((hmem ["a"] (by decide)).2 hfound) (by decide)

end Index

end SeriesBlock
