import SeriesBlock.Proofs.Maps
import SeriesBlock.Proofs.Opening

/-!
# What operations fail with

What may be wrong with the contents of a section once it has been read (`ContentFault`), and with the
record of a series (`RecordFault`). All of these mean that the block is corrupt, and none is the
mismatch of a checksum. A chunk that is not framed is a fault of size.
-/

set_option autoImplicit false

namespace SeriesBlock

open Decoder

/-- A fault in the contents of a section: it has another flag, or another size than its contents. -/
inductive ContentFault : BlockError → Prop where
  | flag (f : UInt8) : ContentFault (.invalidFlag f)
  | size : ContentFault .invalidSize

/-- A fault in the record of a series: its size, a label that is no symbol, or a symbol that is no
text. -/
inductive RecordFault : BlockError → Prop where
  | size : RecordFault .invalidSize
  | length : RecordFault .invalidLength
  | text (t : String) : RecordFault (.invalidUtf8 t)

theorem ContentFault.isCorruption {e : BlockError} (h : ContentFault e) : e.isCorruption = true := by
  cases h with
  | flag f => rfl
  | size => rfl

theorem RecordFault.isCorruption {e : BlockError} (h : RecordFault e) : e.isCorruption = true := by
  cases h with
  | size => rfl
  | length => rfl
  | text t => rfl

/-! ## Contents of sections -/

/-- What is read from a payload fails on the flag of its section or on its size. -/
theorem contentFault_of_standardPayload {α : Type} {f : Bytes → Except BlockError α}
    (hf : ∀ payload e, f payload = .error e → e = .invalidSize) {s : Section} {e : BlockError}
    (h : (s.standardPayload >>= f) = .error e) : ContentFault e := by
  rcases except_bind_eq_error.1 h with hflag | ⟨payload, -, he⟩
  · obtain ⟨-, rfl⟩ := Section.standardPayload_eq_error_iff.1 hflag
    exact .flag s.flag
  · rw [hf payload e he]
    exact .size

theorem BlockStats.eq_invalidSize_of_ofPayload {payload : Bytes} {e : BlockError}
    (h : ofPayload payload = .error e) : e = .invalidSize := by
  have hfields : FailsOnly (· = .invalidSize) fields := by
    refine failsOnly_bind failsOnly_word64 fun _ => ?_
    refine failsOnly_bind failsOnly_word64 fun _ => ?_
    refine failsOnly_bind failsOnly_word32 fun _ => ?_
    refine failsOnly_bind failsOnly_word32 fun _ => ?_
    exact failsOnly_bind failsOnly_word64 fun _ => failsOnly_pure _
  rw [ofPayload] at h
  split at h
  · exact hfields.of_eval h
  · cases h
    rfl

namespace Index

theorem eq_invalidSize_of_tuplesOf {symbols payload : Bytes} {e : BlockError}
    (h : tuplesOf symbols payload = .error e) : e = .invalidSize := by
  rw [tuplesOf] at h
  cases hr : uvarint.run payload with
  | mk r rest =>
      rw [hr] at h
      cases r with
      | ok arity =>
          simp only [StoredTuples.ofPayload] at h
          split at h
          · cases h
          · cases h
            rfl
      | error e' =>
          cases h
          exact failsOnly_uvarint hr

theorem eq_invalidSize_of_refsOf {payload : Bytes} {e : BlockError}
    (h : refsOf payload = .error e) : e = .invalidSize := by
  rw [refsOf] at h
  split at h
  · cases h
  · cases h
    rfl

end Index

/-! ## Buffers of chunks -/

theorem Bytes.eq_invalidSize_of_word32At {b : Bytes} {position : Nat} {e : BlockError}
    (h : b.word32At position = .error e) : e = .invalidSize := by
  rcases except_bind_eq_error.1 h with htail | ⟨tail, -, hword⟩
  · exact eq_invalidSize_of_tailFrom htail
  · exact Decoder.failsOnly_word32.of_eval hword

theorem Chunk.failsOnly_frame : FailsOnly (· = .invalidSize) Chunk.frame := by
  refine failsOnly_bind failsOnly_uvarint fun length => ?_
  refine failsOnly_bind failsOnly_byte fun _ => ?_
  exact failsOnly_bind (failsOnly_take length.toNat) fun _ => failsOnly_pure _

theorem ChunkStore.eq_invalidSize_of_framed {store : ChunkStore} {ref : ChunkRef} {e : BlockError}
    (h : store.framed ref = .error e) : e = .invalidSize := by
  rcases except_bind_eq_error.1 h with htail | ⟨tail, -, he⟩
  · exact Bytes.eq_invalidSize_of_tailFrom htail
  · exact Chunk.failsOnly_frame.of_eval he

/-! ## Records of series -/

/-- A look-up fails on the frame of the symbol or on its text. -/
theorem Symbol.fault_of_text {b : Bytes} {offset : UInt32} {e : BlockError}
    (h : text b offset = .error e) : e = .invalidLength ∨ ∃ t, e = .invalidUtf8 t := by
  rcases except_bind_eq_error.1 h with hlookup | ⟨w, -, he⟩
  · rw [lookup] at hlookup
    split at hlookup
    · cases hlookup
    · cases hlookup
      exact Or.inl rfl
  · cases hd : Utf8.decode w with
    | ok s =>
        rw [hd] at he
        cases he
    | error fault =>
        rw [hd] at he
        cases he
        exact Or.inr ⟨fault.message, rfl⟩

theorem Symbol.recordFault_of_text {b : Bytes} {offset : UInt32} {e : BlockError}
    (h : text b offset = .error e) : RecordFault e := by
  rcases fault_of_text h with rfl | ⟨t, rfl⟩
  · exact .length
  · exact .text t

namespace Series

variable {symbols : Bytes} {mint maxt : Timestamp}

/-- Steps that only look at the size fail with a fault of a record. -/
theorem recordFault_of_size {α : Type} {d : Decoder α} (h : FailsOnly (· = .invalidSize) d) :
    FailsOnly RecordFault d := by
  refine h.mono ?_
  rintro _ rfl
  exact .size

theorem failsOnly_readLabels (n : Nat) : FailsOnly RecordFault (readLabels symbols n) := by
  induction n with
  | zero => exact failsOnly_pure []
  | succ n ih =>
      refine failsOnly_bind (recordFault_of_size failsOnly_uvarint32) fun nameOffset => ?_
      refine failsOnly_bind (recordFault_of_size failsOnly_uvarint32) fun valueOffset => ?_
      refine failsOnly_bind (failsOnly_ofExcept fun e he => Symbol.recordFault_of_text he) fun _ => ?_
      refine failsOnly_bind (failsOnly_ofExcept fun e he => Symbol.recordFault_of_text he) fun _ => ?_
      exact failsOnly_bind ih fun _ => failsOnly_pure _

theorem failsOnly_readChunks (n : Nat) : FailsOnly (· = .invalidSize) (readChunks mint maxt n) := by
  induction n with
  | zero => exact failsOnly_pure _
  | succ n ih =>
      refine failsOnly_bind failsOnly_varint fun first => failsOnly_ite (failsOnly_pure _) ?_
      refine failsOnly_bind failsOnly_varint fun last => ?_
      refine failsOnly_bind failsOnly_uvarint32 fun ref => ?_
      exact failsOnly_bind ih fun _ => failsOnly_ite (failsOnly_pure _) (failsOnly_pure _)

theorem failsOnly_record : FailsOnly RecordFault (record symbols mint maxt) := by
  refine failsOnly_bind (recordFault_of_size (failsOnly_count 1)) fun offsets => ?_
  refine failsOnly_ite (failsOnly_fail .size) ?_
  refine failsOnly_bind (failsOnly_readLabels _) fun labels => ?_
  refine failsOnly_bind (recordFault_of_size (failsOnly_count 3)) fun declared => ?_
  refine failsOnly_bind (recordFault_of_size (failsOnly_readChunks _)) fun _ => ?_
  exact failsOnly_pure _

end Series

/-- **A look-up of a series fails with a fault of its record.** -/
theorem Index.recordFault_of_series {i : Index} {ref : SeriesRef} {mint maxt : Timestamp}
    {e : BlockError} (h : (i.series ref mint maxt).result = .error e) : RecordFault e := by
  rw [series] at h
  split at h
  · cases h
  · next he =>
    cases h
    rcases except_bind_eq_error.1 he with htail | ⟨tail, -, hrecord⟩
    · rw [Bytes.eq_invalidSize_of_tailFrom htail]
      exact .size
    · exact Series.failsOnly_record.of_eval hrecord

end SeriesBlock
