import Mathlib.Data.List.Forall2
import SeriesBlock.Proofs.Faults
import SeriesBlock.Proofs.Machine.Record

/-!
# Framed chunks

A buffer of chunks is the magic word and one frame after another (`laidOut`), and a chunk's reference is the length
that the buffer had before its frame (`startOf`). What is framed there is what was written, whatever comes after it
(`framed_laidOut`).

In any buffer, a frame is read at a reference exactly if a length stands there, one byte behind it and then as many
bytes as it says (`framed_eq_ok_iff`); every other reference is a fault of size (`result_eq_invalidSize_iff`). A
frame that is read gives its chunk, or the refusal of its tag (`Chunk.Answers`).

The main statement is `chunks_are_framed_exactly`.
-/

set_option autoImplicit false

namespace SeriesBlock

/-! ## Tags -/

/-- What is given for a framed tag and payload: the chunk of that tag, or the refusal of a tag that is none of the
two known ones. -/
inductive Chunk.Answers (tag : UInt8) (payload : Bytes) : Except BlockError Chunk → Prop where
  | chunk (encoding : Encoding) : encoding.tag = tag → Answers tag payload (.ok ⟨encoding, payload⟩)
  | refused (fault : CodecFault) : tag ≠ 0 → tag ≠ 1 → fault.message = s!"unknown chunk encoding {tag}" →
      Answers tag payload (.error (.codec fault))

theorem Chunk.answers_ofTagged (tag : UInt8) (payload : Bytes) : Answers tag payload (ofTagged tag payload) := by
  unfold ofTagged Encoding.ofTag
  by_cases hnone : tag = 0
  · rw [if_pos hnone]
    exact .chunk .none hnone.symm
  · by_cases hxor : tag = 1
    · rw [if_neg hnone, if_pos hxor]
      exact .chunk .xor hxor.symm
    · rw [if_neg hnone, if_neg hxor]
      exact .refused _ hnone hxor rfl

/-- Only a codec refuses a frame that was read. -/
theorem Chunk.exists_codec_of_ofTagged {tag : UInt8} {payload : Bytes} {e : BlockError}
    (h : ofTagged tag payload = .error e) : ∃ fault, e = .codec fault := by
  have hanswers := answers_ofTagged tag payload
  rw [h] at hanswers
  cases hanswers with
  | refused fault _ _ _ => exact ⟨fault, rfl⟩

namespace ChunkStore

open Bytes Decoder Varint

/-! ## Frames in any buffer -/

section Frames

variable {s : ChunkStore} {ref : ChunkRef} {tag : UInt8} {payload : Bytes} {length : UInt64} {used : Nat}

/-- What is read at a position are a length, a byte and as many bytes as it says, and reading ends behind
these. -/
theorem run_frame_drop {b rest : Bytes} {n : Nat} (hn : n ≤ b.length) :
    Chunk.frame.run (b.drop n) = (.ok (tag, payload), rest) ↔
      ∃ length used, b.CountedAt n 1 length used ∧ b[n + used]? = some tag ∧
        payload = b.part (n + used + 1) length.toNat ∧ rest = b.drop (n + used + 1 + length.toNat) := by
  constructor
  · intro hrun
    obtain ⟨length, _, hlength, hrun⟩ := run_bind_eq_ok.1 hrun
    obtain ⟨_, _, htag, hrun⟩ := run_bind_eq_ok.1 hrun
    obtain ⟨_, _, htake, hrun⟩ := run_bind_eq_ok.1 hrun
    cases hrun
    -- the steps begin at the position, behind the length and behind the tag
    obtain ⟨used, hcounted, rfl⟩ := run_uvarint_drop.1 hlength
    obtain ⟨hx, rfl⟩ := run_byte_drop.1 htag
    have hin := (List.getElem?_eq_some_iff.1 hx).1
    obtain ⟨hfits, hpayload, hrest⟩ := (run_take_drop hin).1 htake
    exact ⟨length, used, ⟨hn, hcounted, hfits⟩, hx, hpayload, hrest⟩
  · rintro ⟨length, used, ⟨-, hcounted, hfits⟩, htag, rfl, rfl⟩
    have hlength := run_uvarint_drop.2 ⟨used, hcounted, rfl⟩
    have hbyte := run_byte_drop.2 ⟨htag, rfl⟩
    have hin := (List.getElem?_eq_some_iff.1 htag).1
    have htake := (run_take_drop hin).2 ⟨hfits, rfl, rfl⟩
    rw [Chunk.frame, run_bind_ok hlength, run_bind_ok hbyte, run_bind_ok htake]
    rfl

/-- **A frame is read where a length, a byte and as many bytes as the length says stand.** -/
theorem framed_eq_ok_iff :
    s.framed ref = .ok (tag, payload) ↔ ∃ length used, s.buffer.CountedAt ref.toNat 1 length used ∧
      s.buffer[ref.toNat + used]? = some tag ∧
      payload = s.buffer.part (ref.toNat + used + 1) length.toNat := by
  show (s.buffer.tailFrom ref.toNat >>= Chunk.frame.eval) = _ ↔ _
  rw [tailFrom_eval_eq_ok]
  constructor
  · rintro ⟨hn, rest, hrun⟩
    obtain ⟨length, used, hcounted, htag, hpayload, -⟩ := (run_frame_drop hn).1 hrun
    exact ⟨length, used, hcounted, htag, hpayload⟩
  · rintro ⟨length, used, hcounted, htag, rfl⟩
    exact ⟨hcounted.inside, _,
      (run_frame_drop hcounted.inside).2 ⟨length, used, hcounted, htag, rfl, rfl⟩⟩

/-- Behind a length that fits stands a tag. -/
theorem exists_framed_of_countedAt (h : s.buffer.CountedAt ref.toNat 1 length used) :
    ∃ tag, s.buffer[ref.toNat + used]? = some tag ∧
      s.framed ref = .ok (tag, s.buffer.part (ref.toNat + used + 1) length.toNat) := by
  have hin : ref.toNat + used < s.buffer.length := by
    have hfits := h.fits
    omega
  have htag := List.getElem?_eq_getElem hin
  exact ⟨_, htag, framed_eq_ok_iff.2 ⟨length, used, h, htag, rfl⟩⟩

/-- **A frame that is not there is a fault of size**, and nothing else is. -/
theorem result_eq_invalidSize_iff :
    (s.chunk ref).result = .error .invalidSize ↔
      ¬ ∃ length used, s.buffer.CountedAt ref.toNat 1 length used := by
  rw [result_chunk, except_bind_eq_error]
  constructor
  · -- a frame that is there is read, and a tag is refused in other words
    rintro (hframed | ⟨p, -, hrefused⟩) ⟨length, used, hcounted⟩
    · obtain ⟨tag, -, hok⟩ := exists_framed_of_countedAt hcounted
      rw [hframed] at hok
      cases hok
    · obtain ⟨fault, hfault⟩ := Chunk.exists_codec_of_ofTagged hrefused
      cases hfault
  · intro hnone
    cases hframed : s.framed ref with
    | error e => exact Or.inl (congrArg Except.error (eq_invalidSize_of_framed hframed))
    | ok p =>
        obtain ⟨length, used, hcounted, -⟩ := framed_eq_ok_iff.1 hframed
        exact absurd ⟨length, used, hcounted⟩ hnone

theorem invalidSize_or_codec_of_chunk {e : BlockError} (h : (s.chunk ref).result = .error e) :
    e = .invalidSize ∨ ∃ fault, e = .codec fault := by
  rw [result_chunk] at h
  rcases except_bind_eq_error.1 h with hframed | ⟨p, -, hrefused⟩
  · exact Or.inl (eq_invalidSize_of_framed hframed)
  · exact Or.inr (Chunk.exists_codec_of_ofTagged hrefused)

/-- A frame that is read is answered. -/
theorem answers_of_framed (h : s.framed ref = .ok (tag, payload)) :
    Chunk.Answers tag payload (s.chunk ref).result := by
  rw [result_chunk, h]
  exact Chunk.answers_ofTagged tag payload

end Frames

/-! ## Chunks one after another -/

/-- A buffer of chunks: the magic word and the frame of each. -/
def laidOut (chunks : List (UInt8 × Bytes)) : Bytes :=
  ofWord32 magic ++ chunks.flatMap fun c => Chunk.write c.1 c.2

/-- Where a chunk starts: at the end of those before it. -/
def startOf (chunks : List (UInt8 × Bytes)) (k : Nat) : Nat :=
  (laidOut (chunks.take k)).length

/-- The reference by which a chunk is known. -/
def refOf (chunks : List (UInt8 × Bytes)) (k : Nat) : ChunkRef :=
  UInt32.ofNat (startOf chunks k)

section LaidOut

variable {chunks : List (UInt8 × Bytes)} {k : Nat}

theorem ofBytes_laidOut (chunks : List (UInt8 × Bytes)) : ofBytes (laidOut chunks) = .ok ⟨laidOut chunks⟩ := by
  have hmagic := word32At_append [] magic (chunks.flatMap fun c => Chunk.write c.1 c.2) rfl
  refine except_bind_eq_ok.2 ⟨magic, hmagic, ?_⟩
  rw [if_pos rfl]
  rfl

/-- A chunk's frame stands between those before it and those after it. -/
theorem laidOut_eq_append (hk : k < chunks.length) :
    laidOut chunks = laidOut (chunks.take k) ++ (Chunk.write chunks[k].1 chunks[k].2 ++
      (chunks.drop (k + 1)).flatMap fun c => Chunk.write c.1 c.2) := by
  have hsplit : chunks = chunks.take k ++ chunks[k] :: chunks.drop (k + 1) := by
    rw [← List.drop_eq_getElem_cons hk, List.take_append_drop]
  have hframes := congrArg (List.flatMap fun c => Chunk.write c.1 c.2) hsplit
  rw [List.flatMap_append, List.flatMap_cons] at hframes
  rw [laidOut, hframes, ← List.append_assoc]
  rfl

/-- **A frame is read back**, whatever comes after it. -/
theorem run_frame_write {payload : Bytes} (h : payload.length < 2 ^ 64) (tag : UInt8) (post : Bytes) :
    Chunk.frame.run (Chunk.write tag payload ++ post) = (.ok (tag, payload), post) := by
  have hlength : (UInt64.ofNat payload.length).toNat = payload.length := UInt64.toNat_ofNat_of_lt' h
  rw [Chunk.write, List.append_assoc, Chunk.frame, run_bind_ok (run_uvarint_encodeNat h _),
    List.cons_append, run_bind_ok (run_byte_eq_ok.2 rfl), hlength,
    run_bind_ok (run_take_eq_ok.2 ⟨rfl, rfl⟩)]
  rfl

/-- **What was written at a reference is framed there.** -/
theorem framed_laidOut (hk : k < chunks.length) (hlength : chunks[k].2.length < 2 ^ 64)
    (hstart : startOf chunks k < 2 ^ 32) :
    framed ⟨laidOut chunks⟩ (refOf chunks k) = .ok chunks[k] := by
  -- a start that fits the reference is not cut off by it
  have href : (laidOut (chunks.take k)).length = (refOf chunks k).toNat :=
    (UInt32.toNat_ofNat_of_lt' hstart).symm
  show ((laidOut chunks).tailFrom _ >>= Chunk.frame.eval) = _
  rw [laidOut_eq_append hk, tailFrom_append href]
  exact eval_of_run (run_frame_write hlength _ _)

end LaidOut

/-- **Chunks are framed exactly.** Of any chunks that are laid out one after another, with lengths of 64 bits and
references of 32: the buffer opens, and reads in any order, as often as one likes, each give the chunk that was
written, or the refusal of its tag if it is none of the known ones. In any buffer and at any reference: reading a
chunk is a fault of size exactly if there is no length at the reference with a tag and as many bytes as it says
behind it. If there is, the chunk of that tag and of these bytes is given, or the refusal of the tag. There are no
other errors, and the machine gives the same and does not trap. -/
theorem chunks_are_framed_exactly (chunks : List (UInt8 × Bytes)) (hlengths : ∀ c ∈ chunks, c.2.length < 2 ^ 64)
    (hstarts : ∀ k < chunks.length, startOf chunks k < 2 ^ 32) :
    (∃ s, ofBytes (laidOut chunks) = .ok s ∧ ∀ order : List (Fin chunks.length),
      List.Forall₂ (fun k outcome => Chunk.Answers chunks[k].1 chunks[k].2 outcome) order
        (order.map fun k : Fin chunks.length => (s.chunk (refOf chunks k.val)).result) ∧
      (s.buffer.length < 2 ^ 64 →
        Machine.attemptAll (fun k : Fin chunks.length => Machine.chunk s.buffer (refOf chunks k.val)) order =
          pure (order.map fun k : Fin chunks.length => (s.chunk (refOf chunks k.val)).result))) ∧
    ∀ (s : ChunkStore) (ref : ChunkRef),
      ((s.chunk ref).result = .error .invalidSize ↔
        ¬ ∃ length used, s.buffer.CountedAt ref.toNat 1 length used) ∧
      (∀ length used, s.buffer.CountedAt ref.toNat 1 length used →
        ∃ tag, s.buffer[ref.toNat + used]? = some tag ∧
          Chunk.Answers tag (s.buffer.part (ref.toNat + used + 1) length.toNat) (s.chunk ref).result) ∧
      (∀ e, (s.chunk ref).result = .error e → e = .invalidSize ∨ ∃ fault, e = .codec fault) ∧
      (s.buffer.length < 2 ^ 64 → Machine.chunk s.buffer ref = Machine.Run.ends (s.chunk ref).result) := by
  refine ⟨⟨⟨laidOut chunks⟩, ofBytes_laidOut chunks, fun order => ⟨?_, fun hb => ?_⟩⟩, fun s ref =>
    ⟨result_eq_invalidSize_iff, fun length used hcounted => ?_, fun e => invalidSize_or_codec_of_chunk,
      fun hb => Machine.chunk_eq hb ref⟩⟩
  · rw [List.forall₂_map_right_iff, List.forall₂_same]
    intro k _
    have hlength := hlengths _ (List.getElem_mem k.isLt)
    exact answers_of_framed (framed_laidOut k.isLt hlength (hstarts k k.isLt))
  · exact Machine.attemptAll_eq fun k _ => Machine.chunk_eq hb _
  · obtain ⟨tag, htag, hframed⟩ := exists_framed_of_countedAt hcounted
    exact ⟨tag, htag, answers_of_framed hframed⟩

/-- Three chunks, one of an unknown encoding, read in another order and one of them twice, and a reference behind
the end. -/
theorem chunks_are_framed_exactly_threeChunks :
    let chunks : List (UInt8 × Bytes) := [(1, [5, 6]), (7, []), (0, [9])]
    (∀ c ∈ chunks, c.2.length < 2 ^ 64) ∧ (∀ k < chunks.length, startOf chunks k < 2 ^ 32) ∧
      (refOf chunks 0 = 4 ∧ refOf chunks 1 = 8 ∧ refOf chunks 2 = 10) ∧
      ∃ s, ofBytes (laidOut chunks) = .ok s ∧ Chunk.Answers 0 [9] (s.chunk 10).result ∧
        Chunk.Answers 7 [] (s.chunk 8).result ∧
        Machine.attemptAll (Machine.chunk s.buffer) [10, 8, 10] =
          pure [(s.chunk 10).result, (s.chunk 8).result, (s.chunk 10).result] ∧
        (s.chunk 14).result = .error .invalidSize := by
  intro chunks
  have hlengths : ∀ c ∈ chunks, c.2.length < 2 ^ 64 := by decide
  have hstarts : ∀ k < chunks.length, startOf chunks k < 2 ^ 32 := by decide +kernel
  have hrefs : refOf chunks 0 = 4 ∧ refOf chunks 1 = 8 ∧ refOf chunks 2 = 10 := by decide +kernel
  obtain ⟨⟨s, hopen, hreads⟩, hany⟩ := chunks_are_framed_exactly chunks hlengths hstarts
  obtain ⟨hall, hrun⟩ := hreads [⟨2, by decide⟩, ⟨1, by decide⟩, ⟨2, by decide⟩]
  simp only [Machine.attemptAll, List.map_cons, List.map_nil, hrefs.2.1, hrefs.2.2] at hall hrun
  obtain rfl : ⟨laidOut chunks⟩ = s := Except.ok.inj ((ofBytes_laidOut chunks).symm.trans hopen)
  refine ⟨hlengths, hstarts, hrefs, _, hopen, ?_, ?_, hrun (by decide +kernel), ?_⟩
  · cases hall with
    | cons hlast _ => exact hlast
  · cases hall with
    | cons _ hrest =>
        cases hrest with
        | cons hunknown _ => exact hunknown
  · refine (hany _ 14).1.2 ?_
    rintro ⟨length, used, hcounted⟩
    exact absurd hcounted.inside (by decide +kernel)

end ChunkStore

end SeriesBlock
