import SeriesBlock.Proofs.Collecting
import SeriesBlock.Proofs.Listing

/-!
# Keys in any order

What a listing of label indices owes to the order in which the keys of the map are visited. If names are read from
every key it owes nothing to it: the lists are sorted, and there is one way to do that (`mergeSort_eq_of_perm`,
`listing_perm`). If not, it ends with the fault of the first key that is no list of names (`BrokenBy`,
`FirstBroken`, `listing_eq_error_iff`), so that keys which are broken by different faults are told apart by their
order (`listing_of_two_faults`), and each of them may be the one that is reported (`exists_order_of_brokenBy`).

The main statement is `listing_in_any_order`.
-/

set_option autoImplicit false

namespace SeriesBlock

/-- **There is one way to sort lists of names.** -/
theorem Text.mergeSort_eq_of_perm {lists lists' : List (List String)} (h : lists.Perm lists') :
    lists.mergeSort leFields = lists'.mergeSort leFields := by
  have hsame : (lists.mergeSort leFields).Perm (lists'.mergeSort leFields) :=
    (List.mergeSort_perm _ _).trans (h.trans (List.mergeSort_perm _ _).symm)
  apply hsame.eq_of_pairwise _ (pairwise_mergeSort_leFields _) (pairwise_mergeSort_leFields _)
  intro a b _ _ hab hba
  rw [leFields, decide_eq_true_iff] at hab hba
  exact (List.map_inj_right fun _ _ => Utf8.encode_injective).1 (List.le_antisymm hab hba)

namespace Index

/-! ## Keys that are no lists of names -/

/-- Each part of a key is text. -/
def Readable (key : Bytes) : Prop :=
  ∀ part ∈ Key.split key, ∃ s, Utf8.decode part = .ok s

/-- The first part of a key that is no text has the fault. -/
def BrokenBy (key : Bytes) (fault : Utf8.Fault) : Prop :=
  ∃ before part after, Key.split key = before ++ part :: after ∧
    (∀ p ∈ before, ∃ s, Utf8.decode p = .ok s) ∧ Utf8.decode part = .error fault

/-- The first of the keys that is broken is broken by the fault. -/
def FirstBroken (keys : List Bytes) (fault : Utf8.Fault) : Prop :=
  ∃ before key after, keys = before ++ key :: after ∧ (∀ k ∈ before, Readable k) ∧ BrokenBy key fault

section Keys

variable {key : Bytes} {keys keys' : List Bytes} {e : BlockError}

/-- A part of a key as a name. -/
def nameOf (part : Bytes) : Except BlockError String :=
  match Utf8.decode part with
  | .ok s => .ok s
  | .error fault => .error (.invalidUtf8 fault.message)

theorem namesOfKey_eq (key : Bytes) : namesOfKey key = (Key.split key).mapM nameOf :=
  rfl

theorem nameOf_eq_ok_iff {part : Bytes} {s : String} : nameOf part = .ok s ↔ Utf8.decode part = .ok s := by
  rw [nameOf]
  cases Utf8.decode part with
  | ok t => simp
  | error fault => simp

theorem nameOf_eq_error_iff {part : Bytes} :
    nameOf part = .error e ↔ ∃ fault, Utf8.decode part = .error fault ∧ e = .invalidUtf8 fault.message := by
  rw [nameOf]
  cases Utf8.decode part with
  | ok t => simp
  | error fault => simp [eq_comm]

/-- **Names are read from the readable keys.** -/
theorem readable_iff : Readable key ↔ ∃ names, namesOfKey key = .ok names := by
  simp only [Readable, namesOfKey_eq, except_mapM_eq_ok_iff, exists_map_eq_iff, nameOf_eq_ok_iff]

/-- **From no other key**: there the first part that is no text says why. -/
theorem namesOfKey_eq_error_iff :
    namesOfKey key = .error e ↔ ∃ fault, BrokenBy key fault ∧ e = .invalidUtf8 fault.message := by
  rw [namesOfKey_eq, mapM_eq_error_iff]
  constructor
  · rintro ⟨before, part, hfirst⟩
    obtain ⟨⟨after, hsplit⟩, hbefore, hpart⟩ := firstFails_iff.1 hfirst
    obtain ⟨fault, hfault, rfl⟩ := nameOf_eq_error_iff.1 hpart
    simp only [nameOf_eq_ok_iff] at hbefore
    exact ⟨fault, ⟨before, part, after, hsplit, hbefore, hfault⟩, rfl⟩
  · rintro ⟨fault, ⟨before, part, after, hsplit, hbefore, hfault⟩, rfl⟩
    simp only [← nameOf_eq_ok_iff] at hbefore
    exact ⟨before, part,
      firstFails_iff.2 ⟨⟨after, hsplit⟩, hbefore, nameOf_eq_error_iff.2 ⟨fault, hfault, rfl⟩⟩⟩

/-! ## Listings -/

theorem listing_of_readable (hread : ∀ key ∈ keys, Readable key) :
    listing keys = .ok ((keys.map namesIn).mergeSort Text.leFields) :=
  listing_eq_ok fun key hkey => readable_iff.1 (hread key hkey)

/-- **A listing of readable keys is that of any order of them.** -/
theorem listing_perm (h : keys.Perm keys') (hread : ∀ key ∈ keys, Readable key) :
    listing keys' = listing keys := by
  have hread' : ∀ key ∈ keys', Readable key := fun key hkey => hread key (h.mem_iff.2 hkey)
  rw [listing_of_readable hread, listing_of_readable hread', Text.mergeSort_eq_of_perm (h.map namesIn)]

/-- **A listing fails with the fault of the first key that is broken**, and with no other. -/
theorem listing_eq_error_iff :
    listing keys = .error e ↔ ∃ fault, FirstBroken keys fault ∧ e = .invalidUtf8 fault.message := by
  have hmap : listing keys = .error e ↔ keys.mapM namesOfKey = .error e := by
    rw [listing]
    cases keys.mapM namesOfKey with
    | ok lists =>
        constructor
        · intro h
          cases h
        · intro h
          cases h
    | error e' => exact Iff.rfl
  rw [hmap, mapM_eq_error_iff]
  constructor
  · rintro ⟨before, key, hfirst⟩
    obtain ⟨⟨after, hkeys⟩, hbefore, hkey⟩ := firstFails_iff.1 hfirst
    obtain ⟨fault, hbroken, rfl⟩ := namesOfKey_eq_error_iff.1 hkey
    simp only [← readable_iff] at hbefore
    exact ⟨fault, ⟨before, key, after, hkeys, hbefore, hbroken⟩, rfl⟩
  · rintro ⟨fault, ⟨before, key, after, hkeys, hbefore, hbroken⟩, rfl⟩
    simp only [readable_iff] at hbefore
    exact ⟨before, key,
      firstFails_iff.2 ⟨⟨after, hkeys⟩, hbefore, namesOfKey_eq_error_iff.2 ⟨fault, hbroken, rfl⟩⟩⟩

theorem FirstBroken.exists_mem {fault : Utf8.Fault} (h : FirstBroken keys fault) :
    ∃ key ∈ keys, BrokenBy key fault := by
  obtain ⟨before, key, after, rfl, -, hbroken⟩ := h
  exact ⟨key, List.mem_append_right before List.mem_cons_self, hbroken⟩

/-- Of keys that are not all readable one is the first that is broken. -/
theorem exists_firstBroken (h : ¬ ∀ key ∈ keys, Readable key) : ∃ fault, FirstBroken keys fault := by
  rcases firstFails_or_ok namesOfKey keys with ⟨before, key, e, hfirst⟩ | hok
  · have hfails : listing keys = .error e := by
      rw [listing, mapM_of_firstFails hfirst]
      rfl
    obtain ⟨fault, hfirst, -⟩ := listing_eq_error_iff.1 hfails
    exact ⟨fault, hfirst⟩
  · exact absurd (fun key hkey => readable_iff.2 (exists_map_eq_iff.1 hok key hkey)) h

end Keys

/-! ## Label indices -/

section LabelIndices

variable {i i' : Index}

theorem labelIndices_of_firstBroken {fault : Utf8.Fault} (h : FirstBroken i.labels.keys fault) :
    i.labelIndices = ⟨.error (.invalidUtf8 fault.message), []⟩ := by
  rw [labelIndices, listing_eq_error_iff.2 ⟨fault, h, rfl⟩]
  rfl

/-- **Each broken key is the first in some order**, and there it is the one that is reported. -/
theorem exists_order_of_brokenBy {key : Bytes} {fault : Utf8.Fault} (hkey : key ∈ i.labels.keys)
    (h : BrokenBy key fault) :
    ∃ m : OffsetMap, m.entries.Perm i.labels.entries ∧
      ({ i with labels := m }).labelIndices = ⟨.error (.invalidUtf8 fault.message), []⟩ := by
  obtain ⟨entry, hentry, rfl⟩ := List.mem_map.1 hkey
  have hperm := List.perm_cons_erase hentry
  have hnodup : ((entry :: i.labels.entries.erase entry).map Prod.fst).Nodup :=
    (hperm.map Prod.fst).nodup_iff.1 i.labels.nodup
  refine ⟨⟨_, hnodup⟩, hperm.symm, labelIndices_of_firstBroken ?_⟩
  exact ⟨[], entry.1, _, rfl, nofun, h⟩

/-- Readable keys are listed alike in every order. -/
theorem labelIndices_of_perm (h : i.labels.keys.Perm i'.labels.keys)
    (hread : ∀ key ∈ i.labels.keys, Readable key) : i'.labelIndices = i.labelIndices := by
  rw [labelIndices, labelIndices, listing_perm h hread]

/-- Of keys that are not all readable, one is the first that is broken in either order. -/
theorem exists_firstBroken_of_perm (h : i.labels.keys.Perm i'.labels.keys)
    (hnot : ¬ ∀ key ∈ i.labels.keys, Readable key) :
    ∃ fault fault', FirstBroken i.labels.keys fault ∧ FirstBroken i'.labels.keys fault' := by
  have hnot' : ¬ ∀ key ∈ i'.labels.keys, Readable key := fun hread =>
    hnot fun key hkey => hread key (h.mem_iff.1 hkey)
  obtain ⟨fault, hfault⟩ := exists_firstBroken hnot
  obtain ⟨fault', hfault'⟩ := exists_firstBroken hnot'
  exact ⟨fault, fault', hfault, hfault'⟩

/-- **Two orders of the keys agree, or each reports the first broken key in it**, and these are broken differently. -/
theorem labelIndices_eq_or_broken (h : i.labels.keys.Perm i'.labels.keys) :
    i'.labelIndices = i.labelIndices ∨
      ∃ fault fault', FirstBroken i.labels.keys fault ∧ FirstBroken i'.labels.keys fault' ∧
        fault.message ≠ fault'.message ∧
        i.labelIndices = ⟨.error (.invalidUtf8 fault.message), []⟩ ∧
        i'.labelIndices = ⟨.error (.invalidUtf8 fault'.message), []⟩ := by
  by_cases hread : ∀ key ∈ i.labels.keys, Readable key
  · exact .inl (labelIndices_of_perm h hread)
  · obtain ⟨fault, fault', hfault, hfault'⟩ := exists_firstBroken_of_perm h hread
    have hfails := labelIndices_of_firstBroken hfault
    have hfails' := labelIndices_of_firstBroken hfault'
    by_cases hsame : fault.message = fault'.message
    · exact .inl (by rw [hfails, hfails', hsame])
    · exact .inr ⟨fault, fault', hfault, hfault', hsame, hfails, hfails'⟩

/-- What is listed of readable keys. -/
theorem exists_listed (hread : ∀ key ∈ i.labels.keys, Readable key) :
    ∃ listed, Text.StrictlyAscending listed ∧ (listed.map keyOf).Perm i.labels.keys ∧
      i.labelIndices = ⟨.ok listed, []⟩ := by
  have hok := listing_of_readable hread
  obtain ⟨lists, hlisted, hkeys, -⟩ := listing_eq_ok_iff.1 hok
  refine ⟨_, strictlyAscending_of_listing i.labels.nodup hok, ?_, ?_⟩
  · rw [hlisted, ← hkeys]
    exact (List.mergeSort_perm lists Text.leFields).map keyOf
  · rw [labelIndices, hok]
    rfl

end LabelIndices

/-- **Label indices in any order of the keys.** If every key of the map is readable, the lists of names are listed
alike in every order in which the keys are visited: once each, in ascending order. If some key is not, every
order ends with a fault of text, which is that of the first broken key in it; so the orders agree wherever the
broken keys do. Where they do not, each of them is reported in some order. -/
theorem listing_in_any_order (i i' : Index) (h : i.labels.keys.Perm i'.labels.keys) :
    ((∀ key ∈ i.labels.keys, Readable key) →
      ∃ listed, Text.StrictlyAscending listed ∧ (listed.map keyOf).Perm i.labels.keys ∧
        i.labelIndices = ⟨.ok listed, []⟩ ∧ i'.labelIndices = ⟨.ok listed, []⟩) ∧
    ((¬ ∀ key ∈ i.labels.keys, Readable key) →
      ∃ fault fault', FirstBroken i.labels.keys fault ∧ FirstBroken i'.labels.keys fault' ∧
        i.labelIndices = ⟨.error (.invalidUtf8 fault.message), []⟩ ∧
        i'.labelIndices = ⟨.error (.invalidUtf8 fault'.message), []⟩) ∧
    ((∀ key ∈ i.labels.keys, ∀ key' ∈ i.labels.keys, ∀ fault fault',
        BrokenBy key fault → BrokenBy key' fault' → fault.message = fault'.message) →
      i.labelIndices = i'.labelIndices) ∧
    ∀ key ∈ i.labels.keys, ∀ fault, BrokenBy key fault →
      ∃ m : OffsetMap, m.entries.Perm i.labels.entries ∧
        ({ i with labels := m }).labelIndices = ⟨.error (.invalidUtf8 fault.message), []⟩ := by
  refine ⟨?_, ?_, ?_, fun key hkey fault => exists_order_of_brokenBy hkey⟩
  · intro hread
    obtain ⟨listed, hascending, hkeys, hlisted⟩ := exists_listed hread
    exact ⟨listed, hascending, hkeys, hlisted, (labelIndices_of_perm h hread).trans hlisted⟩
  · intro hnot
    obtain ⟨fault, fault', hfault, hfault'⟩ := exists_firstBroken_of_perm h hnot
    exact ⟨fault, fault', hfault, hfault', labelIndices_of_firstBroken hfault,
      labelIndices_of_firstBroken hfault'⟩
  · intro hagree
    rcases labelIndices_eq_or_broken h with hsame | ⟨fault, fault', hfault, hfault', hne, -, -⟩
    · exact hsame.symm
    -- the two that are reported would be broken alike
    · obtain ⟨key, hkey, hbroken⟩ := hfault.exists_mem
      obtain ⟨key', hkey', hbroken'⟩ := hfault'.exists_mem
      exact absurd (hagree key hkey key' (h.mem_iff.2 hkey') fault fault' hbroken hbroken') hne

/-- An index whose map of label indices has these keys. -/
def withKeys (keys : List Bytes) : Index :=
  ⟨[], ⟨[]⟩, .ofList (keys.map fun key => (key, 4)), .empty, {}⟩

/-- Two lists of names in either order, and two keys of which one is broken. -/
theorem listing_in_any_order_reversed :
    ((withKeys [[98], [97, 255, 99]]).labelIndices = ⟨.ok [["a", "c"], ["b"]], []⟩ ∧
      (withKeys [[97, 255, 99], [98]]).labelIndices = ⟨.ok [["a", "c"], ["b"]], []⟩) ∧
    (withKeys [[98], [97, 255, 128]]).labelIndices = (withKeys [[97, 255, 128], [98]]).labelIndices := by
  obtain ⟨hall, -, -, -⟩ :=
    listing_in_any_order (withKeys [[98], [97, 255, 99]]) (withKeys [[97, 255, 99], [98]]) (by decide)
  obtain ⟨-, -, hagree, -⟩ :=
    listing_in_any_order (withKeys [[98], [97, 255, 128]]) (withKeys [[97, 255, 128], [98]]) (by decide)
  have hb : namesOfKey [98] = .ok ["b"] := by decide +kernel
  have hac : namesOfKey [97, 255, 99] = .ok ["a", "c"] := by decide +kernel
  have hbad : namesOfKey [97, 255, 128] =
      .error (.invalidUtf8 "invalid utf-8 sequence of 1 bytes from index 0") := by decide +kernel
  -- the second order visits the lists as they are listed
  have hlisted : (withKeys [[97, 255, 99], [98]]).labelIndices = ⟨.ok [["a", "c"], ["b"]], []⟩ := by
    have hsorted : [["a", "c"], ["b"]].Pairwise fun a b => Text.leFields a b = true := by decide
    have hok : listing [[97, 255, 99], [98]] = .ok [["a", "c"], ["b"]] :=
      listing_eq_ok_iff.2 ⟨[["a", "c"], ["b"]], (List.mergeSort_of_pairwise hsorted).symm, by decide, by decide⟩
    exact congrArg Recorded.ofExcept hok
  constructor
  · obtain ⟨listed, -, -, hfirst, hsecond⟩ := hall (by
      intro key hkey
      rcases List.mem_pair.1 (show key ∈ [[98], [97, 255, 99]] from hkey) with rfl | rfl
      · exact readable_iff.2 ⟨_, hb⟩
      · exact readable_iff.2 ⟨_, hac⟩)
    rw [hlisted] at hsecond
    exact ⟨hfirst.trans hsecond.symm, hlisted⟩
  · apply hagree
    -- of the two keys one is broken, and its fault is found from it
    have hmessage : ∀ key ∈ [[98], [97, 255, 128]], ∀ fault, BrokenBy key fault →
        fault.message = "invalid utf-8 sequence of 1 bytes from index 0" := by
      intro key hkey fault hbroken
      have hfails := namesOfKey_eq_error_iff.2 ⟨fault, hbroken, rfl⟩
      rcases List.mem_pair.1 hkey with rfl | rfl
      · rw [hb] at hfails
        cases hfails
      · rw [hbad, Except.error.injEq, BlockError.invalidUtf8.injEq] at hfails
        exact hfails.symm
    intro key hkey key' hkey' fault fault' hbroken hbroken'
    rw [hmessage key hkey fault hbroken, hmessage key' hkey' fault' hbroken']

/-- Two keys that are broken by different faults: the order says which of them is reported. -/
theorem listing_of_two_faults :
    let i := withKeys [[128], [97, 128]]
    let i' := withKeys [[97, 128], [128]]
    i.labels.entries.Perm i'.labels.entries ∧
      i.labelIndices.result = .error (.invalidUtf8 "invalid utf-8 sequence of 1 bytes from index 0") ∧
      i'.labelIndices.result = .error (.invalidUtf8 "invalid utf-8 sequence of 1 bytes from index 1") ∧
      i.labelIndices.result ≠ i'.labelIndices.result := by
  decide +kernel

end Index

end SeriesBlock
