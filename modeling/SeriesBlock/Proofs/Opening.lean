import SeriesBlock.Index
import SeriesBlock.Proofs.Framing
import SeriesBlock.Proofs.Recorded

/-!
# Opening an index

What it takes to open an index: the word at its start and the two at its end (`readEnds_of_words`),
and the two maps that those lead to (`result_ofBytes`). An opened index keeps what it was opened from.

Every section is read in one of three ways (`readSection_cases`), each with its outcome and its
journal; the payload of a section that was read is a part of the buffer.
-/

set_option autoImplicit false

namespace SeriesBlock

open Bytes

namespace Index

/-! ## The ends of a buffer -/

/-- A buffer of the least length or more starts with a word and ends with two. -/
theorem exists_words {b : Bytes} (h : minLength ≤ b.length) :
    ∃ (found labels postings : UInt32) (mid : Bytes), 4 ≤ mid.length ∧
      b = ofWord32 found ++ (mid ++ (ofWord32 labels ++ (ofWord32 postings ++ []))) := by
  have h16 : 16 ≤ b.length := h
  obtain ⟨found, r, hr⟩ := Decoder.exists_word32 (b := b) (by omega)
  have hlen : b.length = r.length + 4 := by
    rw [hr, List.length_append, length_ofWord32, Nat.add_comm]
  -- the last eight bytes lie behind the first four
  obtain ⟨labels, t, ht⟩ := Decoder.exists_word32 (b := r.drop (r.length - 8)) (by
    rw [List.length_drop]
    omega)
  have htlen : t.length = 4 := by
    have := congrArg List.length ht
    rw [List.length_drop, List.length_append, length_ofWord32] at this
    omega
  obtain ⟨postings, u, hu⟩ := Decoder.exists_word32 (b := t) (by omega)
  have hu0 : u = [] := by
    have := congrArg List.length hu
    rw [List.length_append, length_ofWord32] at this
    exact List.length_eq_zero_iff.1 (by omega)
  refine ⟨found, labels, postings, r.take (r.length - 8), ?_, ?_⟩
  · rw [List.length_take]
    omega
  · rw [hr, ← hu0, ← hu, ← ht, List.take_append_drop]

/-- Reading the ends of a buffer whose words are known. -/
theorem readEnds_of_words {found labels postings : UInt32} {mid : Bytes} (hm : 4 ≤ mid.length) :
    readEnds (ofWord32 found ++ (mid ++ (ofWord32 labels ++ (ofWord32 postings ++ [])))) =
      if found = magic then .ok (labels, postings) else .error (.invalidMagic magic found) := by
  have hmin : ¬ (ofWord32 found ++ (mid ++ (ofWord32 labels ++ (ofWord32 postings ++ [])))).length <
      minLength := by
    simp only [List.length_append, length_ofWord32, minLength, List.length_nil]
    omega
  have hfirst := word32At_append [] found (mid ++ (ofWord32 labels ++ (ofWord32 postings ++ [])))
    (n := 0) rfl
  -- the other two are found from the end
  have hlabels := word32At_append (ofWord32 found ++ mid) labels (ofWord32 postings ++ [])
    (n := (ofWord32 found ++ (mid ++ (ofWord32 labels ++ (ofWord32 postings ++ [])))).length - 8)
    (by
      simp only [List.length_append, length_ofWord32, List.length_nil]
      omega)
  have hpostings := word32At_append (ofWord32 found ++ (mid ++ ofWord32 labels)) postings []
    (n := (ofWord32 found ++ (mid ++ (ofWord32 labels ++ (ofWord32 postings ++ [])))).length - 4)
    (by
      simp only [List.length_append, length_ofWord32, List.length_nil]
      omega)
  rw [List.append_assoc] at hlabels
  rw [List.append_assoc, List.append_assoc] at hpostings
  rw [readEnds, if_neg hmin]
  rw [List.nil_append] at hfirst
  rw [hfirst]
  by_cases hf : found = magic
  · rw [if_pos hf]
    show (if found = magic then _ else _ : Except BlockError (UInt32 × UInt32)) = _
    rw [if_pos hf, hlabels, hpostings]
    rfl
  · rw [if_neg hf]
    show (if found = magic then _ else _ : Except BlockError (UInt32 × UInt32)) = _
    rw [if_neg hf]
    rfl

/-! ## The opened index -/

/-- Opening an index reads its ends and then its two maps. -/
theorem result_ofBytes (options : ReaderOptions) (store : ChunkStore) (b : Bytes) :
    (ofBytes options store b).result = readEnds b >>= fun ends =>
      (readMap options b ends.1).result >>= fun labels =>
        (readMap options b ends.2).result >>= fun postings =>
          .ok ⟨b, store, labels, postings, options⟩ := by
  -- opening reports failures, but its result is that of loading
  have hload : (load options store b).result = readEnds b >>= fun ends =>
      (readMap options b ends.1).result >>= fun labels =>
        (readMap options b ends.2).result >>= fun postings =>
          .ok ⟨b, store, labels, postings, options⟩ := by
    rw [load, Recorded.result_bind]
    congr 1
    funext ends
    rw [Recorded.result_bind]
    congr 1
    funext labels
    rw [Recorded.result_bind]
    rfl
  rw [ofBytes, Recorded.result_bind, Recorded.result_onError, hload]
  exact bind_pure _

/-- An index that was opened keeps what it was opened from. -/
theorem of_result_ofBytes {options : ReaderOptions} {store : ChunkStore} {b : Bytes} {i : Index}
    (h : (ofBytes options store b).result = .ok i) :
    i.buffer = b ∧ i.chunks = store ∧ i.options = options := by
  rw [result_ofBytes] at h
  obtain ⟨ends, -, h⟩ := except_bind_eq_ok.1 h
  obtain ⟨labels, -, h⟩ := except_bind_eq_ok.1 h
  obtain ⟨postings, -, h⟩ := except_bind_eq_ok.1 h
  cases h
  exact ⟨rfl, rfl, rfl⟩

/-! ## Reading a section -/

/-- **The ways in which reading a section ends**: there is no frame, the section is there and passes
the verification that is asked for, or its trailer is wrong, which is reported. -/
theorem readSection_cases (options : ReaderOptions) (b : Bytes) (offset : UInt32) :
    (Section.read b offset = .error .invalidSize ∧
        readSection options b offset = ⟨.error .invalidSize, []⟩) ∨
      ∃ s, Section.read b offset = .ok s ∧
        ((options.verifyChecksums = true → Checksum.ofSection s.flag s.payload = s.checksum) ∧
            readSection options b offset = ⟨.ok s, []⟩ ∨
          options.verifyChecksums = true ∧ Checksum.ofSection s.flag s.payload ≠ s.checksum ∧
            readSection options b offset =
              ⟨.error (.checksumMismatch offset s.checksum (Checksum.ofSection s.flag s.payload)),
                [.event (.checksumMismatch offset s.checksum
                  (Checksum.ofSection s.flag s.payload))]⟩) := by
  unfold readSection
  cases hr : Section.read b offset with
  | error e =>
      have he := Section.eq_invalidSize_of_read hr
      subst he
      exact Or.inl ⟨rfl, rfl⟩
  | ok s =>
      right
      refine ⟨s, rfl, ?_⟩
      obtain ⟨ho, -, -⟩ := Section.read_eq_ok_iff.1 hr
      cases hv : options.verifyChecksums with
      | false => exact Or.inl ⟨nofun, rfl⟩
      | true =>
          by_cases hc : Checksum.ofSection s.flag s.payload = s.checksum
          · refine Or.inl ⟨fun _ => hc, ?_⟩
            simp only [Section.verify_eq_ok.2 hc, if_true]
          · refine Or.inr ⟨rfl, hc, ?_⟩
            simp only [Section.verify_of_ne hc, if_true, ho]

/-- Verifying a section does not change it. -/
theorem read_of_readSection {options : ReaderOptions} {b : Bytes} {offset : UInt32} {s : Section}
    (h : (readSection options b offset).result = .ok s) : Section.read b offset = .ok s := by
  rcases readSection_cases options b offset with ⟨-, he⟩ | ⟨s', hr, ⟨-, he⟩ | ⟨-, -, he⟩⟩
  · rw [he] at h
    cases h
  · rw [he] at h
    cases h
    exact hr
  · rw [he] at h
    cases h

end Index

namespace Section

/-- A payload is shorter than the buffer it was read from. -/
theorem length_payload_of_read {b : Bytes} {offset : UInt32} {s : Section}
    (h : read b offset = .ok s) : s.payload.length + 9 ≤ b.length := by
  obtain ⟨-, -, pre, post, rfl, -⟩ := read_eq_ok_iff.1 h
  rw [List.length_append, List.length_append, length_stored]
  omega

end Section

end SeriesBlock
