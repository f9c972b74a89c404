import SeriesBlock.Proofs.Codec
import SeriesBlock.Proofs.Grammar

/-!
# Unique decodability of entries

An entry of a map stands in a payload as any written form of the length of its key, the key, and any
written form of its offset (`StoredEntry`). Numbers say where they end (`Groups.eq_of_append_eq`), and so do
entries (`StoredEntry.eq_of_append_eq`): a payload that starts with other entries starts with these
(`prefix_of_bytesOf_prefix`). Hence no payload is split in two ways (`bytesOf_injective`), and none that is
cut off inside an entry is split at all (`not_exists_of_cut`).

The main statement is `map_sections_are_decodable`.
-/

set_option autoImplicit false

namespace SeriesBlock

open Varint

/-- **A number says where it ends**: two runs of groups at the front of one byte string are the same. -/
theorem Varint.Groups.eq_of_append_eq {w w' r r' : Bytes} {n n' : Nat} (h : Groups w n)
    (h' : Groups w' n') (heq : w ++ r = w' ++ r') : w = w' ∧ n = n' ∧ r = r' := by
  obtain ⟨last, hlast, hlen, hsum⟩ := h.groupSum_eq r
  obtain ⟨last', hlast', hlen', hsum'⟩ := h'.groupSum_eq r'
  -- the first byte without a top bit is the last of both
  rw [heq, hlast', Option.some.injEq] at hlast
  have hlength : w.length = w'.length := by rw [hlen, hlen', hlast]
  obtain ⟨rfl, rfl⟩ := List.append_inj heq hlength
  exact ⟨rfl, hsum.symm.trans hsum', rfl⟩

namespace OffsetMap

/-! ## Entries as they stand -/

/-- An entry as it stands in a payload, with the forms in which its two numbers are written. -/
@[ext]
structure StoredEntry where
  lengthForm : Bytes
  key : Bytes
  offsetForm : Bytes
  offset : UInt32
  length_written : Written lengthForm key.length
  offset_written : Written offsetForm offset.toNat

namespace StoredEntry

/-- The bytes of an entry. -/
def bytes (e : StoredEntry) : Bytes :=
  e.lengthForm ++ (e.key ++ e.offsetForm)

/-- The key and the offset that an entry is for. -/
def pair (e : StoredEntry) : Bytes × UInt32 :=
  (e.key, e.offset)

theorem bytes_ne_nil (e : StoredEntry) : e.bytes ≠ [] := by
  have hpos := e.length_written.groups.length_pos
  intro hnil
  simp [bytes] at hnil
  simp [hnil.1] at hpos

/-- **An entry says where it ends**: two entries at the front of one byte string are the same. -/
theorem eq_of_append_eq {e e' : StoredEntry} {r r' : Bytes} (h : e.bytes ++ r = e'.bytes ++ r') :
    e = e' ∧ r = r' := by
  simp only [bytes, List.append_assoc] at h
  obtain ⟨hform, hlength, h⟩ := e.length_written.groups.eq_of_append_eq e'.length_written.groups h
  obtain ⟨hkey, h⟩ := List.append_inj h hlength
  obtain ⟨hform', hoffset, h⟩ := e.offset_written.groups.eq_of_append_eq e'.offset_written.groups h
  exact ⟨StoredEntry.ext hform hkey hform' (UInt32.toNat_inj.1 hoffset), h⟩

end StoredEntry

/-- The payload that a run of entries takes. -/
def bytesOf (es : List StoredEntry) : Bytes :=
  es.flatMap StoredEntry.bytes

section Runs

variable {front back es es' : List StoredEntry} {e : StoredEntry} {b : Bytes}

@[simp]
theorem bytesOf_cons (e : StoredEntry) (es : List StoredEntry) :
    bytesOf (e :: es) = e.bytes ++ bytesOf es :=
  List.flatMap_cons

@[simp]
theorem bytesOf_append (es es' : List StoredEntry) :
    bytesOf (es ++ es') = bytesOf es ++ bytesOf es' :=
  List.flatMap_append

/-- **What starts with the bytes of other entries starts with these entries.** -/
theorem prefix_of_bytesOf_prefix (h : bytesOf es <+: bytesOf es') : es <+: es' := by
  induction es generalizing es' with
  | nil => exact List.nil_prefix
  | cons e es ih =>
      obtain ⟨rest, hrest⟩ := h
      cases es' with
      | nil =>
          simp [bytesOf, e.bytes_ne_nil] at hrest
      | cons e' es' =>
          rw [bytesOf_cons, bytesOf_cons, List.append_assoc] at hrest
          obtain ⟨rfl, hmore⟩ := StoredEntry.eq_of_append_eq hrest
          exact List.cons_prefix_cons.2 ⟨rfl, ih ⟨rest, hmore⟩⟩

/-- **No payload is split in two ways.** -/
theorem bytesOf_injective : Function.Injective bytesOf := by
  intro es es' h
  have hle : es <+: es' := prefix_of_bytesOf_prefix (h ▸ List.prefix_rfl)
  have hge : es' <+: es := prefix_of_bytesOf_prefix (h ▸ List.prefix_rfl)
  exact hle.eq_of_length_le hge.length_le

theorem length_bytesOf_le (h : es <+: es') : (bytesOf es).length ≤ (bytesOf es').length := by
  obtain ⟨more, rfl⟩ := h
  simp

/-- **What is cut off inside an entry is no run of entries.** -/
theorem not_exists_of_cut {n : Nat} (hlow : (bytesOf front).length < n)
    (hhigh : n < (bytesOf front).length + e.bytes.length) :
    ¬ ∃ es, bytesOf es = (bytesOf (front ++ e :: back)).take n := by
  rintro ⟨es, hes⟩
  have hlength : (bytesOf es).length = n := by
    rw [hes, List.length_take_of_le]
    simp
    omega
  have hpre : es <+: front ++ e :: back :=
    prefix_of_bytesOf_prefix (hes ▸ List.take_prefix n _)
  -- either the entry that is cut is one of them, or they end before it
  rcases Nat.lt_or_ge front.length es.length with hlong | hshort
  · have hmore : front ++ [e] <+: es := by
      have hfront : front ++ [e] <+: front ++ e :: back := ⟨back, by simp⟩
      apply List.prefix_of_prefix_length_le hfront hpre
      rwa [List.length_append, List.length_singleton]
    have hle := length_bytesOf_le hmore
    simp [bytesOf] at hle
    simp [bytesOf] at hhigh hlength
    omega
  · have hle := length_bytesOf_le
      (List.prefix_of_prefix_length_le hpre (List.prefix_append front _) hshort)
    omega

/-- A run of entries is what it was written from, with the forms of the numbers. -/
theorem entries_iff_exists_stored {pairs : List (Bytes × UInt32)} :
    Entries b pairs ↔ ∃ es, bytesOf es = b ∧ es.map StoredEntry.pair = pairs := by
  constructor
  · intro h
    induction h with
    | nil => exact ⟨[], rfl, rfl⟩
    | @cons w key o rest offset entries hw ho hrest ih =>
        obtain ⟨es, rfl, rfl⟩ := ih
        refine ⟨⟨w, key, o, offset, hw, ho⟩ :: es, ?_, rfl⟩
        simp [StoredEntry.bytes]
  · rintro ⟨es, rfl, rfl⟩
    induction es with
    | nil => exact .nil
    | cons e es ih =>
        have hcons := Entries.cons e.length_written e.offset_written ih
        simpa [StoredEntry.bytes, StoredEntry.pair] using hcons

end Runs

/-! ## Sections of maps -/

section Sections

variable {s : Section}

theorem ofSection_of_bytesOf (hflag : s.flag = Section.standardFlag) {es : List StoredEntry}
    (hes : bytesOf es = s.payload) : ofSection s = .ok (ofList (es.map StoredEntry.pair)) :=
  ofSection_eq_ok_iff.2 ⟨hflag, _, entries_iff_exists_stored.2 ⟨es, hes, rfl⟩, rfl⟩

theorem exists_ofSection_iff (hflag : s.flag = Section.standardFlag) :
    (∃ m, ofSection s = .ok m) ↔ ∃ es, bytesOf es = s.payload := by
  constructor
  · rintro ⟨m, hm⟩
    obtain ⟨-, pairs, hpairs, -⟩ := ofSection_eq_ok_iff.1 hm
    obtain ⟨es, hes, -⟩ := entries_iff_exists_stored.1 hpairs
    exact ⟨es, hes⟩
  · rintro ⟨es, hes⟩
    exact ⟨_, ofSection_of_bytesOf hflag hes⟩

theorem eq_invalidSize_of_ofSection (hflag : s.flag = Section.standardFlag) {e : BlockError}
    (h : ofSection s = .error e) : e = .invalidSize := by
  rcases ofSection_eq_error_iff.1 h with ⟨hother, -⟩ | ⟨-, -, he⟩
  · exact absurd hflag hother
  · exact he

theorem ofSection_payload (hflag : s.flag = Section.standardFlag) {entries : List (Bytes × UInt32)}
    (hkeys : ∀ e ∈ entries, e.1.length < 2 ^ 64) (hs : s.payload = payload entries) :
    ofSection s = .ok (ofList entries) := by
  have hentries := readEntries_eq_ok_iff.1 (readEntries_payload hkeys)
  exact ofSection_eq_ok_iff.2 ⟨hflag, entries, hs ▸ hentries, rfl⟩

/-- A payload that is cut off inside an entry is refused. -/
theorem ofSection_of_cut (hflag : s.flag = Section.standardFlag) {front back : List StoredEntry}
    {e : StoredEntry} {n : Nat} (hs : bytesOf (front ++ e :: back) = s.payload)
    (hlow : (bytesOf front).length < n) (hhigh : n < (bytesOf front).length + e.bytes.length) :
    ofSection { s with payload := s.payload.take n } = .error .invalidSize := by
  apply ofSection_eq_error_iff.2
  right
  refine ⟨hflag, ?_, rfl⟩
  rintro ⟨pairs, hpairs⟩
  obtain ⟨es, hes, -⟩ := entries_iff_exists_stored.1 hpairs
  rw [← hs] at hes
  exact not_exists_of_cut hlow hhigh ⟨es, hes⟩

end Sections

/-- **The sections of maps are decodable.** Written entries are read as the map in which each of their keys
leads to the offset of its last entry, and which has no other keys; so they are when their section is framed
in a buffer. A section with the standard flag is read exactly if its payload is a run of entries, whatever
the forms of the numbers, and gives their map; any other is refused for its size, such as one that is cut
off inside an entry. A payload is a run of entries in one way only. -/
theorem map_sections_are_decodable :
    (∀ (s : Section) (entries : List (Bytes × UInt32)), s.flag = Section.standardFlag →
      (∀ e ∈ entries, e.1.length < 2 ^ 64) → s.payload = payload entries →
      ∃ m, ofSection s = .ok m ∧ (∀ key, m.get? key = entries.reverse.lookup key) ∧
        ∀ key, key ∈ m.keys ↔ key ∈ entries.map Prod.fst) ∧
    (∀ pre post entries, pre.length < 2 ^ 32 → (payload entries).length < 2 ^ 32 →
      (Section.read (pre ++ (Section.write Section.standardFlag (payload entries) ++ post))
        (UInt32.ofNat pre.length) >>= ofSection) = .ok (ofList entries)) ∧
    (∀ s : Section, s.flag = Section.standardFlag →
      ((∃ m, ofSection s = .ok m) ↔ ∃ es, bytesOf es = s.payload) ∧
      (∀ es, bytesOf es = s.payload → ofSection s = .ok (ofList (es.map StoredEntry.pair))) ∧
      (∀ e, ofSection s = .error e → e = .invalidSize) ∧
      ∀ front e back n, bytesOf (front ++ e :: back) = s.payload →
        (bytesOf front).length < n → n < (bytesOf front).length + e.bytes.length →
        ofSection { s with payload := s.payload.take n } = .error .invalidSize) ∧
    Function.Injective bytesOf := by
  refine ⟨?_, ?_, ?_, bytesOf_injective⟩
  · intro s entries hflag hkeys hs
    exact ⟨_, ofSection_payload hflag hkeys hs, get?_ofList entries, fun _ => mem_keys_ofList⟩
  · intro pre post entries hpre hsmall
    have hkeys : ∀ e ∈ entries, e.1.length < 2 ^ 64 := by
      intro e he
      have hlength := Nat.lt_of_le_of_lt (length_key_le_payload he) hsmall
      exact Nat.lt_trans hlength (by decide)
    have hoffset := (UInt32.toNat_ofNat_of_lt' hpre).symm
    have hread := Section.read_write Section.standardFlag post hoffset hsmall
    exact except_bind_eq_ok.2 ⟨_, hread, ofSection_payload rfl hkeys rfl⟩
  · intro s hflag
    refine ⟨exists_ofSection_iff hflag, fun _ => ofSection_of_bytesOf hflag,
      fun _ => eq_invalidSize_of_ofSection hflag, ?_⟩
    intro front e back n hs hlow hhigh
    exact ofSection_of_cut hflag hs hlow hhigh

/-- The empty key with an offset in two groups. -/
def emptyKey : StoredEntry where
  lengthForm := [0]
  key := []
  offsetForm := [0xac, 2]
  offset := 300
  length_written := ⟨.last (by decide), by decide, by decide⟩
  offset_written := ⟨.more (by decide) (.last (by decide)), by decide, by decide⟩

/-- A key of one byte, its length in two groups. -/
def longForm : StoredEntry where
  lengthForm := [0x81, 0]
  key := [97]
  offsetForm := [5]
  offset := 5
  length_written := ⟨.more (by decide) (.last (by decide)), by decide, by decide⟩
  offset_written := ⟨.last (by decide), by decide, by decide⟩

/-- A key that is written twice beside the empty one, and a payload that is cut off inside its second entry. -/
theorem map_sections_are_decodable_emptyKey :
    (∃ m, ofSection ⟨0, 1, [1, 97, 7, 0, 0xac, 2, 1, 97, 9], 0⟩ = .ok m ∧
      m.get? [97] = some 9 ∧ m.get? [] = some 300 ∧ m.get? [98] = none) ∧
    ((Section.read ([7, 7] ++ (Section.write 1 (payload [([], 300)]) ++ [7])) 2 >>= ofSection) =
      .ok (ofList [([], 300)])) ∧
    ofSection ⟨0, 1, [0, 0xac, 2, 0x81, 0, 97, 5], 0⟩ = .ok (ofList [([], 300), ([97], 5)]) ∧
    ofSection ⟨0, 1, [0, 0xac, 2, 0x81, 0, 97], 0⟩ = .error .invalidSize := by
  obtain ⟨hwritten, hframed, hread, -⟩ := map_sections_are_decodable
  refine ⟨?_, hframed [7, 7] [7] [([], 300)] (by decide) (by decide +kernel), ?_, ?_⟩
  · obtain ⟨m, hm, hkeys, -⟩ := hwritten ⟨0, 1, [1, 97, 7, 0, 0xac, 2, 1, 97, 9], 0⟩
      [([97], 7), ([], 300), ([97], 9)] rfl (by decide) (by decide +kernel)
    exact ⟨m, hm, hkeys [97], hkeys [], hkeys [98]⟩
  · exact (hread ⟨0, 1, [0, 0xac, 2, 0x81, 0, 97, 5], 0⟩ rfl).2.1 [emptyKey, longForm] rfl
  · exact (hread ⟨0, 1, [0, 0xac, 2, 0x81, 0, 97, 5], 0⟩ rfl).2.2.2 [emptyKey] longForm [] 6 rfl
      (by decide) (by decide)

end OffsetMap

end SeriesBlock
