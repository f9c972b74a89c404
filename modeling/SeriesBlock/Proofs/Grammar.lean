import SeriesBlock.Proofs.Groups
import SeriesBlock.Proofs.Maps
import SeriesBlock.Proofs.Opening

/-!
# The grammar of an index

Which buffers can be opened, said of the buffer alone. The payload of a map is a run of entries
(`Entries`), its section is framed in the buffer at an offset (`Section.At`), which is so exactly where
the declared length fits (`Section.Fits`), and the offsets of both sections stand at the end of a
buffer that starts with the magic word (`Ends`).

A buffer is opened exactly when it follows the grammar, and otherwise the error is that of the first
condition that it violates (`MapFault`, `Refused`): `opening_follows_grammar`. Each reader has one lemma
for what it accepts and one for what it refuses, and the theorem is put together from these.
-/

set_option autoImplicit false

namespace SeriesBlock

open Bytes Varint

/-! ## Entries -/

namespace OffsetMap

/-- A run of entries, each the length of a key, the key, and an offset. -/
inductive Entries : Bytes → List (Bytes × UInt32) → Prop where
  | nil : Entries [] []
  | cons {w key o rest : Bytes} {offset : UInt32} {entries : List (Bytes × UInt32)} :
      Written w key.length → Written o offset.toNat → Entries rest entries →
      Entries (w ++ (key ++ (o ++ rest))) ((key, offset) :: entries)

/-- **An entry is read off the front** exactly where one stands. -/
theorem run_entry_eq_ok_iff {b rest key : Bytes} {offset : UInt32} :
    entry.run b = (.ok (key, offset), rest) ↔
      ∃ w o, b = w ++ (key ++ (o ++ rest)) ∧ Written w key.length ∧ Written o offset.toNat := by
  constructor
  · intro h
    obtain ⟨length, b₁, h₁, h⟩ := Decoder.run_bind_eq_ok.1 h
    obtain ⟨key', b₂, h₂, h⟩ := Decoder.run_bind_eq_ok.1 h
    obtain ⟨offset', b₃, h₃, h⟩ := Decoder.run_bind_eq_ok.1 h
    cases h
    obtain ⟨w, rfl, hw⟩ := Decoder.run_uvarint_eq_ok_iff.1 h₁
    obtain ⟨rfl, hlen⟩ := Decoder.run_take_eq_ok.1 h₂
    obtain ⟨o, rfl, ho⟩ := Decoder.run_uvarint32_eq_ok_iff.1 h₃
    rw [← hlen] at hw
    exact ⟨w, o, rfl, hw, ho⟩
  · rintro ⟨w, o, rfl, hw, ho⟩
    have hn : (UInt64.ofNat key.length).toNat = key.length := UInt64.toNat_ofNat_of_lt' hw.lt
    refine Decoder.run_bind_eq_ok.2 ⟨UInt64.ofNat key.length, key ++ (o ++ rest), ?_, ?_⟩
    · exact Decoder.run_uvarint_eq_ok_iff.2 ⟨w, rfl, by rwa [hn]⟩
    · refine Decoder.run_bind_eq_ok.2 ⟨key, o ++ rest, ?_, ?_⟩
      · exact Decoder.run_take_eq_ok.2 ⟨rfl, hn.symm⟩
      · exact Decoder.run_bind_eq_ok.2
          ⟨offset, rest, Decoder.run_uvarint32_eq_ok_iff.2 ⟨o, rfl, ho⟩, rfl⟩

/-- A run of entries that is not empty takes bytes. -/
theorem Entries.ne_nil {b : Bytes} {e : Bytes × UInt32} {entries : List (Bytes × UInt32)}
    (h : Entries b (e :: entries)) : b ≠ [] := by
  cases h with
  | cons hw ho hrest =>
      intro hnil
      have hpos := hw.groups.length_pos
      rw [(List.append_eq_nil_iff.1 hnil).1] at hpos
      exact Nat.lt_irrefl 0 hpos

/-- **A payload is read exactly when it is a run of entries**, and gives these. -/
theorem readEntries_eq_ok_iff {b : Bytes} {entries : List (Bytes × UInt32)} :
    readEntries b = .ok entries ↔ Entries b entries := by
  constructor
  · intro h
    -- each entry read is one entry of the run, and the payload is used up with the last
    induction entries generalizing b with
    | nil =>
        by_cases hb : b = []
        · subst hb
          exact .nil
        · rw [readEntries_of_ne hb] at h
          obtain ⟨p, -, h⟩ := except_bind_eq_ok.1 h
          obtain ⟨es, -, h⟩ := except_bind_eq_ok.1 h
          cases h
    | cons e entries ih =>
        by_cases hb : b = []
        · subst hb
          rw [readEntries_nil] at h
          cases h
        · rw [readEntries_of_ne hb] at h
          obtain ⟨⟨e', rest⟩, he, h⟩ := except_bind_eq_ok.1 h
          obtain ⟨es, hes, h⟩ := except_bind_eq_ok.1 h
          cases h
          obtain ⟨w, o, rfl, hw, ho⟩ := run_entry_eq_ok_iff.1 (Decoder.step_eq_ok.1 he)
          exact .cons hw ho (ih hes)
  · intro h
    induction h with
    | nil => exact readEntries_nil
    | @cons w key o rest offset entries hw ho hrest ih =>
        have hne := (Entries.cons hw ho hrest).ne_nil
        have hstep : entry.step (w ++ (key ++ (o ++ rest))) = .ok ((key, offset), rest) :=
          Decoder.step_eq_ok.2 (run_entry_eq_ok_iff.2 ⟨w, o, rfl, hw, ho⟩)
        rw [readEntries_of_ne hne, hstep]
        refine except_bind_eq_ok.2 ⟨_, rfl, ?_⟩
        exact except_bind_eq_ok.2 ⟨entries, ih, rfl⟩

theorem ofPayload_eq_ok_iff {b : Bytes} {m : OffsetMap} :
    ofPayload b = .ok m ↔ ∃ entries, Entries b entries ∧ m = ofList entries := by
  simp only [← readEntries_eq_ok_iff]
  rw [ofPayload]
  cases readEntries b with
  | ok entries =>
      constructor
      · intro h
        cases h
        exact ⟨entries, rfl, rfl⟩
      · rintro ⟨_, he, rfl⟩
        cases he
        rfl
  | error e =>
      constructor
      · intro h
        cases h
      · rintro ⟨_, he, -⟩
        cases he

theorem ofPayload_eq_error_iff {b : Bytes} {e : BlockError} :
    ofPayload b = .error e ↔ (¬ ∃ entries, Entries b entries) ∧ e = .invalidSize := by
  have hentries : (∃ m, ofPayload b = .ok m) ↔ ∃ entries, Entries b entries := by
    constructor
    · rintro ⟨m, hm⟩
      obtain ⟨entries, he, -⟩ := ofPayload_eq_ok_iff.1 hm
      exact ⟨entries, he⟩
    · rintro ⟨entries, he⟩
      exact ⟨_, ofPayload_eq_ok_iff.2 ⟨entries, he, rfl⟩⟩
  rw [← hentries]
  exact except_eq_error_iff fun _ he => eq_invalidSize_of_ofPayload he

/-- The map of a section is that of the entries in its payload, if it has the standard flag. -/
theorem ofSection_eq_ok_iff {s : Section} {m : OffsetMap} :
    ofSection s = .ok m ↔ s.flag = Section.standardFlag ∧
      ∃ entries, Entries s.payload entries ∧ m = ofList entries := by
  rw [ofSection, except_bind_eq_ok, ← ofPayload_eq_ok_iff]
  constructor
  · rintro ⟨payload, hp, hm⟩
    rw [Section.standardPayload_eq_ok_iff] at hp
    obtain ⟨hflag, rfl⟩ := hp
    exact ⟨hflag, hm⟩
  · rintro ⟨hflag, hm⟩
    exact ⟨s.payload, Section.standardPayload_eq_ok_iff.2 ⟨hflag, rfl⟩, hm⟩

theorem ofSection_eq_error_iff {s : Section} {e : BlockError} :
    ofSection s = .error e ↔ s.flag ≠ Section.standardFlag ∧ e = .invalidFlag s.flag ∨
      s.flag = Section.standardFlag ∧ (¬ ∃ entries, Entries s.payload entries) ∧ e = .invalidSize := by
  rw [ofSection, except_bind_eq_error, Section.standardPayload_eq_error_iff, ← ofPayload_eq_error_iff]
  constructor
  · rintro (hflag | ⟨payload, hp, he⟩)
    · exact Or.inl hflag
    · obtain ⟨hflag, rfl⟩ := Section.standardPayload_eq_ok_iff.1 hp
      exact Or.inr ⟨hflag, he⟩
  · rintro (hflag | ⟨hflag, he⟩)
    · exact Or.inl hflag
    · exact Or.inr ⟨s.payload, Section.standardPayload_eq_ok_iff.2 ⟨hflag, rfl⟩, he⟩

end OffsetMap

/-! ## Frames -/

namespace Section

/-- The length that is declared in a frame at an offset. -/
def declared (b : Bytes) (offset : UInt32) : Nat :=
  toNat ((b.drop (offset.toNat + 1)).take 4)

/-- A frame at an offset ends in the buffer. -/
def Fits (b : Bytes) (offset : UInt32) : Prop :=
  offset.toNat + 9 + declared b offset ≤ b.length

/-- The buffer holds the stored form of a section at its offset. -/
structure At (b : Bytes) (s : Section) : Prop where
  length_lt : s.payload.length < 2 ^ 32
  stored_at : ∃ pre post, b = pre ++ s.stored ++ post ∧ pre.length = s.offset.toNat

theorem read_eq_ok_iff_at {b : Bytes} {offset : UInt32} {s : Section} :
    read b offset = .ok s ↔ s.offset = offset ∧ At b s := by
  rw [read_eq_ok_iff]
  constructor
  · rintro ⟨rfl, hlen, hstored⟩
    exact ⟨rfl, hlen, hstored⟩
  · rintro ⟨rfl, hlen, hstored⟩
    exact ⟨rfl, hlen, hstored⟩

/-- A buffer holds one section at most at an offset. -/
theorem At.eq_of_read {b : Bytes} {s s' : Section} (h : At b s) (hr : read b s.offset = .ok s') :
    s' = s := by
  rw [read_eq_ok_iff_at.2 ⟨rfl, h⟩] at hr
  cases hr
  rfl

/-- What stands in a frame stands in the buffer, at its place behind the offset. -/
theorem At.part_eq {b w : Bytes} {s : Section} {start length : Nat} (h : At b s) (front back : Bytes)
    (hs : s.stored = front ++ (w ++ back)) (hstart : s.offset.toNat + front.length = start)
    (hlength : w.length = length) : b.part start length = w := by
  obtain ⟨pre, post, rfl, hpre⟩ := h.stored_at
  apply part_of_append (pre ++ front) (back ++ post)
  · simp [hs]
  · rw [List.length_append, hpre, hstart]
  · exact hlength

/-- The declared length is that of the payload. -/
theorem At.declared_eq {b : Bytes} {s : Section} (h : At b s) :
    declared b s.offset = s.payload.length := by
  have hword : b.part (s.offset.toNat + 1) 4 = ofWord32 (UInt32.ofNat s.payload.length) :=
    h.part_eq [s.flag] (s.payload ++ ofWord32 s.checksum) (by simp [stored]) rfl (length_ofWord32 _)
  show toNat (b.part (s.offset.toNat + 1) 4) = s.payload.length
  rw [hword, toNat_ofWord32, UInt32.toNat_ofNat_of_lt' h.length_lt]

/-- **A frame is read exactly where its declared length fits the buffer.** -/
theorem exists_read_iff_fits {b : Bytes} {offset : UInt32} :
    (∃ s, read b offset = .ok s) ↔ Fits b offset := by
  constructor
  · rintro ⟨s, hs⟩
    obtain ⟨rfl, hat⟩ := read_eq_ok_iff_at.1 hs
    rw [Fits, hat.declared_eq]
    obtain ⟨pre, post, rfl, hpre⟩ := hat.stored_at
    simp only [List.length_append, length_stored, hpre]
    omega
  · intro hfits
    have htail : b.tailFrom offset.toNat = .ok (b.drop offset.toNat) :=
      if_pos (by unfold Fits at hfits; omega)
    obtain ⟨flag, length, rest, hrest⟩ := exists_head (b := b.drop offset.toNat) (by
      rw [List.length_drop]
      unfold Fits at hfits
      omega)
    -- the declared length is that of the frame which stands there
    have hdeclared : declared b offset = length.toNat := by
      rw [declared, ← List.drop_drop, hrest, List.drop_one, List.tail_cons,
        List.take_left' (length_ofWord32 length), toNat_ofWord32]
    have hlen := congrArg List.length hrest
    rw [List.length_drop, List.length_cons, List.length_append, length_ofWord32] at hlen
    rw [Fits, hdeclared] at hfits
    have heval := eval_frame_head offset length flag rest
    rw [if_pos (by omega), ← hrest] at heval
    exact ⟨_, except_bind_eq_ok.2 ⟨_, htail, heval⟩⟩

theorem read_eq_error_iff {b : Bytes} {offset : UInt32} {e : BlockError} :
    read b offset = .error e ↔ ¬ Fits b offset ∧ e = .invalidSize := by
  rw [← exists_read_iff_fits]
  exact except_eq_error_iff fun _ he => eq_invalidSize_of_read he

end Section

namespace Index

/-! ## The two ends -/

/-- A buffer of the least length that starts with the magic word and ends with two offsets. -/
structure Ends (b : Bytes) (labels postings : UInt32) : Prop where
  length_le : minLength ≤ b.length
  magic_first : ofWord32 magic <+: b
  offsets_last : ofWord32 labels ++ ofWord32 postings <:+ b

theorem readEnds_eq_ok_iff {b : Bytes} {labels postings : UInt32} :
    readEnds b = .ok (labels, postings) ↔ Ends b labels postings := by
  by_cases hshort : b.length < minLength
  · rw [readEnds, if_pos hshort]
    constructor
    · intro h
      cases h
    · intro h
      exact absurd h.length_le (Nat.not_le_of_gt hshort)
  · obtain ⟨found, lo, po, mid, hmid, rfl⟩ := exists_words (Nat.le_of_not_lt hshort)
    rw [readEnds_of_words hmid]
    constructor
    · intro h
      split at h
      · next hfound =>
        cases h
        subst hfound
        refine ⟨Nat.le_of_not_lt hshort, List.prefix_append _ _, ?_⟩
        exact ⟨ofWord32 magic ++ mid, by simp⟩
      · cases h
    -- the first word and the last two are those that the buffer was taken apart into
    · rintro ⟨-, ⟨t, ht⟩, ⟨u, hu⟩⟩
      have hfound : magic = found := ofWord32_inj (List.append_inj ht rfl).1
      rw [← List.append_assoc (ofWord32 found), List.append_nil] at hu
      have hlast := (List.append_inj' hu rfl).2
      obtain ⟨hlo, hpo⟩ := List.append_inj hlast rfl
      rw [if_pos hfound.symm, ofWord32_inj hlo, ofWord32_inj hpo]

theorem readEnds_eq_error_iff {b : Bytes} {e : BlockError} :
    readEnds b = .error e ↔ b.length < minLength ∧ e = .invalidSize ∨
      minLength ≤ b.length ∧ ∃ found, ofWord32 found <+: b ∧ found ≠ magic ∧
        e = .invalidMagic magic found := by
  by_cases hshort : b.length < minLength
  · rw [readEnds, if_pos hshort]
    constructor
    · intro h
      cases h
      exact Or.inl ⟨hshort, rfl⟩
    · rintro (⟨-, rfl⟩ | ⟨hlen, -⟩)
      · rfl
      · exact absurd hshort (Nat.not_lt_of_le hlen)
  · obtain ⟨found, lo, po, mid, hmid, rfl⟩ := exists_words (Nat.le_of_not_lt hshort)
    rw [readEnds_of_words hmid]
    constructor
    · intro h
      split at h
      · cases h
      · next hfound =>
        cases h
        exact Or.inr ⟨Nat.le_of_not_lt hshort, found, List.prefix_append _ _, hfound, rfl⟩
    · rintro (⟨hlt, -⟩ | ⟨-, found', ⟨t, ht⟩, hne, rfl⟩)
      · exact absurd hlt hshort
      · have hfound : found' = found := ofWord32_inj (List.append_inj ht rfl).1
        subst hfound
        rw [if_neg hne]

/-! ## The two maps -/

/-- A section that is framed in the buffer at an offset and, if checksums are verified, has the checksum
of its contents for a trailer. -/
structure SectionAt (options : ReaderOptions) (b : Bytes) (offset : UInt32) (s : Section) : Prop where
  offset_eq : s.offset = offset
  framed : Section.At b s
  checksum_eq : options.verifyChecksums = true → Checksum.ofSection s.flag s.payload = s.checksum

/-- A map at an offset: a section with the standard flag that holds a run of entries. -/
def MapAt (options : ReaderOptions) (b : Bytes) (offset : UInt32)
    (entries : List (Bytes × UInt32)) : Prop :=
  ∃ s, SectionAt options b offset s ∧ s.flag = Section.standardFlag ∧
    OffsetMap.Entries s.payload entries

/-- The first condition that fails for a map at an offset, and the error for it. -/
inductive MapFault (options : ReaderOptions) (b : Bytes) (offset : UInt32) : BlockError → Prop where
  | frame : ¬ Section.Fits b offset → MapFault options b offset .invalidSize
  | checksum {s : Section} : s.offset = offset → Section.At b s → options.verifyChecksums = true →
      Checksum.ofSection s.flag s.payload ≠ s.checksum →
      MapFault options b offset
        (.checksumMismatch offset s.checksum (Checksum.ofSection s.flag s.payload))
  | flag {s : Section} : SectionAt options b offset s → s.flag ≠ Section.standardFlag →
      MapFault options b offset (.invalidFlag s.flag)
  | entries {s : Section} : SectionAt options b offset s → s.flag = Section.standardFlag →
      (¬ ∃ entries, OffsetMap.Entries s.payload entries) → MapFault options b offset .invalidSize

variable {options : ReaderOptions} {b : Bytes} {offset : UInt32}

theorem result_readSection_eq_ok_iff {s : Section} :
    (readSection options b offset).result = .ok s ↔ SectionAt options b offset s := by
  rcases readSection_cases options b offset with
    ⟨hread, hcase⟩ | ⟨s', hread, ⟨hsum, hcase⟩ | ⟨hverify, hne, hcase⟩⟩
  · rw [hcase]
    refine ⟨nofun, ?_⟩
    rintro ⟨rfl, hat, -⟩
    rw [Section.read_eq_ok_iff_at.2 ⟨rfl, hat⟩] at hread
    cases hread
  · rw [hcase]
    constructor
    · intro h
      cases h
      obtain ⟨hoffset, hat⟩ := Section.read_eq_ok_iff_at.1 hread
      exact ⟨hoffset, hat, hsum⟩
    · rintro ⟨rfl, hat, -⟩
      rw [hat.eq_of_read hread]
  · rw [hcase]
    refine ⟨nofun, ?_⟩
    rintro ⟨rfl, hat, hsum⟩
    rw [hat.eq_of_read hread] at hne
    exact absurd (hsum hverify) hne

theorem result_readSection_eq_error_iff {e : BlockError} :
    (readSection options b offset).result = .error e ↔ ¬ Section.Fits b offset ∧ e = .invalidSize ∨
      ∃ s, s.offset = offset ∧ Section.At b s ∧ options.verifyChecksums = true ∧
        Checksum.ofSection s.flag s.payload ≠ s.checksum ∧
        e = .checksumMismatch offset s.checksum (Checksum.ofSection s.flag s.payload) := by
  rcases readSection_cases options b offset with
    ⟨hread, hcase⟩ | ⟨s', hread, ⟨hsum, hcase⟩ | ⟨hverify, hne, hcase⟩⟩
  · rw [hcase]
    constructor
    · intro h
      cases h
      exact Or.inl (Section.read_eq_error_iff.1 hread)
    · rintro (⟨-, rfl⟩ | ⟨s, rfl, hat, -⟩)
      · rfl
      · rw [Section.read_eq_ok_iff_at.2 ⟨rfl, hat⟩] at hread
        cases hread
  · rw [hcase]
    refine ⟨nofun, ?_⟩
    rintro (⟨hfits, -⟩ | ⟨s, rfl, hat, hverify, hne, -⟩)
    · exact absurd (Section.exists_read_iff_fits.1 ⟨s', hread⟩) hfits
    · rw [hat.eq_of_read hread] at hsum
      exact absurd (hsum hverify) hne
  · rw [hcase]
    constructor
    · intro h
      cases h
      obtain ⟨hoffset, hat⟩ := Section.read_eq_ok_iff_at.1 hread
      exact Or.inr ⟨s', hoffset, hat, hverify, hne, rfl⟩
    · rintro (⟨hfits, -⟩ | ⟨s, rfl, hat, -, -, rfl⟩)
      · exact absurd (Section.exists_read_iff_fits.1 ⟨s', hread⟩) hfits
      · rw [hat.eq_of_read hread]

theorem result_readMap_eq_ok_iff {m : OffsetMap} :
    (readMap options b offset).result = .ok m ↔
      ∃ entries, MapAt options b offset entries ∧ m = .ofList entries := by
  rw [readMap, Recorded.result_bind, except_bind_eq_ok]
  constructor
  · rintro ⟨s, hs, hm⟩
    obtain ⟨hflag, entries, hentries, rfl⟩ := OffsetMap.ofSection_eq_ok_iff.1 hm
    exact ⟨entries, ⟨s, result_readSection_eq_ok_iff.1 hs, hflag, hentries⟩, rfl⟩
  · rintro ⟨entries, ⟨s, hs, hflag, hentries⟩, rfl⟩
    refine ⟨s, result_readSection_eq_ok_iff.2 hs, ?_⟩
    exact OffsetMap.ofSection_eq_ok_iff.2 ⟨hflag, entries, hentries, rfl⟩

/-- **A map is refused for the first condition that fails.** -/
theorem result_readMap_eq_error_iff {e : BlockError} :
    (readMap options b offset).result = .error e ↔ MapFault options b offset e := by
  rw [readMap, Recorded.result_bind, except_bind_eq_error]
  constructor
  · rintro (hs | ⟨s, hs, he⟩)
    · rcases result_readSection_eq_error_iff.1 hs with
        ⟨hfits, rfl⟩ | ⟨s, hoffset, hat, hverify, hne, rfl⟩
      · exact .frame hfits
      · exact .checksum hoffset hat hverify hne
    · have hsection := result_readSection_eq_ok_iff.1 hs
      rcases OffsetMap.ofSection_eq_error_iff.1 he with ⟨hflag, rfl⟩ | ⟨hflag, hnone, rfl⟩
      · exact .flag hsection hflag
      · exact .entries hsection hflag hnone
  · intro h
    cases h with
    | frame hfits => exact Or.inl (result_readSection_eq_error_iff.2 (Or.inl ⟨hfits, rfl⟩))
    | @checksum s hoffset hat hverify hne =>
        exact Or.inl (result_readSection_eq_error_iff.2
          (Or.inr ⟨s, hoffset, hat, hverify, hne, rfl⟩))
    | @flag s hsection hflag =>
        exact Or.inr ⟨s, result_readSection_eq_ok_iff.2 hsection,
          OffsetMap.ofSection_eq_error_iff.2 (Or.inl ⟨hflag, rfl⟩)⟩
    | @entries s hsection hflag hnone =>
        exact Or.inr ⟨s, result_readSection_eq_ok_iff.2 hsection,
          OffsetMap.ofSection_eq_error_iff.2 (Or.inr ⟨hflag, hnone, rfl⟩)⟩

/-! ## The whole index -/

/-- The first condition that a buffer violates, and the error for it. -/
inductive Refused (options : ReaderOptions) (b : Bytes) : BlockError → Prop where
  | short : b.length < minLength → Refused options b .invalidSize
  | magic {found : UInt32} : minLength ≤ b.length → ofWord32 found <+: b → found ≠ Index.magic →
      Refused options b (.invalidMagic Index.magic found)
  | labels {lo po : UInt32} {e : BlockError} : Ends b lo po → MapFault options b lo e →
      Refused options b e
  | postings {lo po : UInt32} {labels : List (Bytes × UInt32)} {e : BlockError} : Ends b lo po →
      MapAt options b lo labels → MapFault options b po e → Refused options b e

/-- Whatever keeps a map from being read means that the block is corrupt. -/
theorem MapFault.isCorruption {e : BlockError} (h : MapFault options b offset e) :
    e.isCorruption = true := by
  cases h with
  | frame hfits => rfl
  | checksum hoffset hat hverify hne => rfl
  | flag hsection hflag => rfl
  | entries hsection hflag hnone => rfl

theorem Refused.isCorruption {e : BlockError} (h : Refused options b e) : e.isCorruption = true := by
  cases h with
  | short hlen => rfl
  | magic hlen hfound hne => rfl
  | labels hends hfault => exact hfault.isCorruption
  | postings hends hlabels hfault => exact hfault.isCorruption

theorem result_ofBytes_eq_ok_iff {store : ChunkStore} {i : Index} :
    (ofBytes options store b).result = .ok i ↔
      ∃ lo po labels postings, Ends b lo po ∧ MapAt options b lo labels ∧
        MapAt options b po postings ∧
        i = ⟨b, store, .ofList labels, .ofList postings, options⟩ := by
  rw [result_ofBytes, except_bind_eq_ok]
  constructor
  · rintro ⟨⟨lo, po⟩, hends, h⟩
    obtain ⟨ml, hl, h⟩ := except_bind_eq_ok.1 h
    obtain ⟨mp, hp, h⟩ := except_bind_eq_ok.1 h
    obtain ⟨labels, hlabels, rfl⟩ := result_readMap_eq_ok_iff.1 hl
    obtain ⟨postings, hpostings, rfl⟩ := result_readMap_eq_ok_iff.1 hp
    cases h
    exact ⟨lo, po, labels, postings, readEnds_eq_ok_iff.1 hends, hlabels, hpostings, rfl⟩
  · rintro ⟨lo, po, labels, postings, hends, hlabels, hpostings, rfl⟩
    refine ⟨(lo, po), readEnds_eq_ok_iff.2 hends, ?_⟩
    refine except_bind_eq_ok.2 ⟨_, result_readMap_eq_ok_iff.2 ⟨labels, hlabels, rfl⟩, ?_⟩
    exact except_bind_eq_ok.2 ⟨_, result_readMap_eq_ok_iff.2 ⟨postings, hpostings, rfl⟩, rfl⟩

theorem result_ofBytes_eq_error_iff {store : ChunkStore} {e : BlockError} :
    (ofBytes options store b).result = .error e ↔ Refused options b e := by
  rw [result_ofBytes, except_bind_eq_error]
  constructor
  -- the first of the three steps that fails decides
  · rintro (hends | ⟨⟨lo, po⟩, hends, h⟩)
    · rcases readEnds_eq_error_iff.1 hends with ⟨hshort, rfl⟩ | ⟨hlen, found, hfound, hne, rfl⟩
      · exact .short hshort
      · exact .magic hlen hfound hne
    · have hlast := readEnds_eq_ok_iff.1 hends
      rcases except_bind_eq_error.1 h with hl | ⟨ml, hl, h⟩
      · exact .labels hlast (result_readMap_eq_error_iff.1 hl)
      · obtain ⟨labels, hlabels, -⟩ := result_readMap_eq_ok_iff.1 hl
        rcases except_bind_eq_error.1 h with hp | ⟨mp, -, h⟩
        · exact .postings hlast hlabels (result_readMap_eq_error_iff.1 hp)
        · cases h
  · intro h
    cases h with
    | short hshort => exact Or.inl (readEnds_eq_error_iff.2 (Or.inl ⟨hshort, rfl⟩))
    | @magic found hlen hfound hne =>
        exact Or.inl (readEnds_eq_error_iff.2 (Or.inr ⟨hlen, found, hfound, hne, rfl⟩))
    | @labels lo po e hends hfault =>
        refine Or.inr ⟨(lo, po), readEnds_eq_ok_iff.2 hends, ?_⟩
        exact except_bind_eq_error.2 (Or.inl (result_readMap_eq_error_iff.2 hfault))
    | @postings lo po labels e hends hlabels hfault =>
        refine Or.inr ⟨(lo, po), readEnds_eq_ok_iff.2 hends, ?_⟩
        refine except_bind_eq_error.2 (Or.inr ⟨_, result_readMap_eq_ok_iff.2 ⟨labels, hlabels, rfl⟩, ?_⟩)
        exact except_bind_eq_error.2 (Or.inl (result_readMap_eq_error_iff.2 hfault))

/-- **Opening accepts exactly the grammar of an index.** The opened index holds, for each of its maps,
the offset of every key's last entry. Any other buffer is refused for the first condition it violates. -/
theorem opening_follows_grammar (options : ReaderOptions) (store : ChunkStore) (b : Bytes) :
    ((∃ i, (ofBytes options store b).result = .ok i) ↔
      ∃ lo po labels postings, Ends b lo po ∧ MapAt options b lo labels ∧
        MapAt options b po postings) ∧
    (∀ i lo po labels postings, (ofBytes options store b).result = .ok i → Ends b lo po →
      MapAt options b lo labels → MapAt options b po postings →
      i.buffer = b ∧ i.chunks = store ∧ i.options = options ∧
        ∀ key, i.labels.get? key = labels.reverse.lookup key ∧
          i.postingsMap.get? key = postings.reverse.lookup key) ∧
    ∀ e, (ofBytes options store b).result = .error e ↔ Refused options b e := by
  refine ⟨?_, ?_, ?_⟩
  · constructor
    · rintro ⟨i, hi⟩
      obtain ⟨lo, po, labels, postings, hends, hlabels, hpostings, -⟩ := result_ofBytes_eq_ok_iff.1 hi
      exact ⟨lo, po, labels, postings, hends, hlabels, hpostings⟩
    · rintro ⟨lo, po, labels, postings, hends, hlabels, hpostings⟩
      exact ⟨_, result_ofBytes_eq_ok_iff.2
        ⟨lo, po, labels, postings, hends, hlabels, hpostings, rfl⟩⟩
  · intro i lo po labels postings hi hends hlabels hpostings
    have hopen : (ofBytes options store b).result =
        .ok ⟨b, store, .ofList labels, .ofList postings, options⟩ :=
      result_ofBytes_eq_ok_iff.2 ⟨lo, po, labels, postings, hends, hlabels, hpostings, rfl⟩
    rw [hi] at hopen
    cases hopen
    refine ⟨rfl, rfl, rfl, ?_⟩
    intro key
    exact ⟨OffsetMap.get?_ofList labels key, OffsetMap.get?_ofList postings key⟩
  · intro e
    exact result_ofBytes_eq_error_iff

/-- Two entries of one key, the second of them with the length of the key in two groups. -/
def twoEntries : Bytes :=
  [1] ++ ([97] ++ ([1] ++ ([0x81, 0] ++ ([97] ++ ([2] ++ [])))))

/-- An index whose two maps are one section. -/
def withOneMap : Bytes :=
  ofWord32 magic ++ (Section.write Section.standardFlag twoEntries ++ (ofWord32 4 ++ ofWord32 4))

theorem ends_withOneMap : Ends withOneMap 4 4 where
  length_le := by decide
  magic_first := List.prefix_append _ _
  offsets_last := ⟨ofWord32 magic ++ Section.write Section.standardFlag twoEntries,
    List.append_assoc _ _ _⟩

theorem mapAt_withOneMap (options : ReaderOptions) :
    MapAt options withOneMap 4 [([97], 1), ([97], 2)] := by
  have hone : Written [1] 1 := ⟨.last (by decide), by decide, by decide⟩
  have htwo : Written [2] 2 := ⟨.last (by decide), by decide, by decide⟩
  have hlong : Written [0x81, 0] 1 := ⟨.more (by decide) (.last (by decide)), by decide, by decide⟩
  refine ⟨⟨4, Section.standardFlag, twoEntries, Checksum.ofSection Section.standardFlag twoEntries⟩,
    ⟨rfl, ⟨by decide, ofWord32 magic, ofWord32 4 ++ ofWord32 4, ?_, by decide⟩, fun _ => rfl⟩, rfl, ?_⟩
  · rw [withOneMap, Section.write_eq_stored 4, List.append_assoc]
  · exact .cons hone hone (.cons hlong htwo .nil)

/-- The key leads to the offset of its second entry. -/
theorem opening_follows_grammar_withOneMap :
    ∃ i, (ofBytes ⟨true, .none⟩ ⟨[]⟩ withOneMap).result = .ok i ∧
      i.labels.get? [97] = some 2 ∧ i.postingsMap.get? [97] = some 2 := by
  obtain ⟨haccepts, hholds, -⟩ := opening_follows_grammar ⟨true, .none⟩ ⟨[]⟩ withOneMap
  have hmap := mapAt_withOneMap ⟨true, .none⟩
  obtain ⟨i, hi⟩ := haccepts.2 ⟨4, 4, _, _, ends_withOneMap, hmap, hmap⟩
  obtain ⟨-, -, -, hkeys⟩ := hholds i 4 4 _ _ hi ends_withOneMap hmap hmap
  exact ⟨i, hi, hkeys [97]⟩

end Index

end SeriesBlock
