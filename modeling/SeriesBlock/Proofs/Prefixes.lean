import SeriesBlock.Proofs.Chunks
import SeriesBlock.Proofs.Symbols

/-!
# Longer and shorter buffers

What is read from a buffer is settled by the bytes up to where its frame ends (`SettledAt`): with other bytes
behind them it stays as it is, and on every buffer that is cut off before that place there is nothing to be read.
Decoders whose steps show where they end settle their outcome (`Decoder.SelfDelimiting.settledAt`), and so does
what depends on such an outcome alone (`SettledAt.of_outcome`) and what is read at a position (`SettledAt.shift`).

The main statement is `frames_settle_what_is_read`, for numbers, sections, symbols and chunks.
-/

set_option autoImplicit false

namespace SeriesBlock

open Bytes Decoder

/-- What is read from a buffer is settled by its bytes up to `stop`: more bytes at its end change nothing, nor do
fewer if those up to `stop` are left, and a buffer that is cut off before gives `short`. -/
structure SettledAt {ρ : Type} (read : Bytes → ρ) (short : ρ) (b : Bytes) (stop : Nat) : Prop where
  inside : stop ≤ b.length
  extended : ∀ s, read (b ++ s) = read b
  kept : ∀ c, stop ≤ c → read (b.take c) = read b
  cut : ∀ c < stop, read (b.take c) = short

section Settled

variable {α ρ σ : Type} {read read' : Bytes → ρ} {short : ρ} {b w rest : Bytes} {n k : Nat}

/-- What is read from the front bytes alone, and from no part of them, is settled by these. -/
theorem settledAt_append (hsame : ∀ s, read (w ++ s) = read w)
    (hcut : ∀ c < w.length, read (w.take c) = short) : SettledAt read short (w ++ rest) w.length where
  inside := by simp
  extended s := by rw [List.append_assoc, hsame, hsame]
  kept c hc := by rw [List.take_append, List.take_of_length_le hc, hsame, hsame]
  cut c hc := by rw [List.take_append_of_le_length (Nat.le_of_lt hc), hcut c hc]

/-- What depends on a settled outcome alone is settled. -/
theorem SettledAt.of_outcome {made : Bytes → σ} {short' : σ} (h : SettledAt read short b k)
    (hsame : ∀ b b', read b = read b' → made b = made b') (hshort : ∀ b, read b = short → made b = short') :
    SettledAt made short' b k where
  inside := h.inside
  extended s := hsame _ _ (h.extended s)
  kept c hc := hsame _ _ (h.kept c hc)
  cut c hc := hshort _ (h.cut c hc)

/-- What is read from a position on is settled that much further back. -/
theorem SettledAt.shift (h : SettledAt read short (b.drop n) k) (hn : n ≤ b.length)
    (hinside : ∀ b, n ≤ b.length → read' b = read (b.drop n))
    (houtside : ∀ b, b.length < n → read' b = short) : SettledAt read' short b (n + k) := by
  have hread : read' b = read (b.drop n) := hinside b hn
  -- a buffer that is cut off behind the position is cut off in what is read from there on
  have htake : ∀ c, n ≤ c → read' (b.take c) = read ((b.drop n).take (c - n)) := by
    intro c hc
    rw [hinside _ (by rw [List.length_take]; omega), List.drop_take]
  refine ⟨?_, ?_, ?_, ?_⟩
  · have hk := h.inside
    rw [List.length_drop] at hk
    omega
  · intro s
    rw [hinside _ (by rw [List.length_append]; omega), List.drop_append_of_le_length hn, h.extended, hread]
  · intro c hc
    rw [htake c (by omega), h.kept _ (by omega), hread]
  · intro c hc
    by_cases hcn : n ≤ c
    · rw [htake c hcn, h.cut _ (by omega)]
    · apply houtside
      rw [List.length_take]
      omega

end Settled

/-! ## Decoders -/

section Decoders

variable {α : Type} {d : Decoder α} {b w rest : Bytes} {a : α} {n stop : Nat}

/-- A decoder that shows where it ends fails on every part of what it takes. -/
theorem Decoder.SelfDelimiting.eval_take_eq {e : BlockError} (hd : SelfDelimiting d)
    (hf : FailsOnly (· = e) d) (h : d.run w = (.ok a, [])) {c : Nat} (hc : c < w.length) :
    d.eval (w.take c) = .error e := by
  obtain ⟨e', he'⟩ := hd.eval_take h hc
  rw [he', hf.of_eval he']

/-- **A decoder that shows where it ends settles its outcome there.** -/
theorem Decoder.SelfDelimiting.settledAt {e : BlockError} (hd : SelfDelimiting d) (hf : FailsOnly (· = e) d)
    (h : d.run b = (.ok a, rest)) : SettledAt d.eval (.error e) b (b.length - rest.length) := by
  obtain ⟨w, rfl, hw⟩ := hd h
  have hwhole : d.run w = (.ok a, []) := by
    have hnil := hw []
    rwa [List.append_nil] at hnil
  rw [List.length_append, Nat.add_sub_cancel]
  apply settledAt_append
  · intro s
    rw [eval_of_run (hw s), eval_of_run hwhole]
  · intro c hc
    exact hd.eval_take_eq hf hwhole hc

/-- The same at a position of a buffer, by where the decoder ends in it. -/
theorem Decoder.SelfDelimiting.settledAt_tailFrom (hd : SelfDelimiting d)
    (hf : FailsOnly (· = .invalidSize) d) (hn : n ≤ b.length) (hstop : stop ≤ b.length)
    (h : d.run (b.drop n) = (.ok a, b.drop stop)) :
    SettledAt (fun b => b.tailFrom n >>= d.eval) (.error .invalidSize) b stop := by
  have hle : (b.drop stop).length ≤ (b.drop n).length := by
    obtain ⟨w, hw, -⟩ := hd h
    rw [hw, List.length_append]
    exact Nat.le_add_left _ _
  have hsettled := hd.settledAt hf h
  rw [List.length_drop, List.length_drop] at hle hsettled
  have hplace : n + (b.length - n - (b.length - stop)) = stop := by omega
  rw [← hplace]
  apply hsettled.shift hn
  · intro b hb
    rw [tailFrom, if_pos hb]
    rfl
  · intro b hb
    rw [tailFrom, if_neg (Nat.not_le_of_lt hb)]
    rfl

end Decoders

/-! ## Numbers -/

namespace Varint

variable {b : Bytes} {n used : Nat}

/-- A number is settled by its groups. -/
theorem settledAt_decode {v : UInt64} (h : decode b = some (v, used)) : SettledAt decode none b used := by
  obtain ⟨w, rest, rfl, rfl, hw⟩ := decode_eq_some_iff.1 h
  have hsame : ∀ s, decode (w ++ s) = some (v, w.length) := fun s =>
    decode_eq_some_iff.2 ⟨w, s, rfl, rfl, hw⟩
  apply settledAt_append
  · intro s
    rw [hsame s, ← hsame [], List.append_nil]
  -- the decoder of numbers finds too little in a part of them
  · intro c hc
    have hwhole : uvarint.run w = (.ok v, []) :=
      run_uvarint_eq_ok_iff.2 ⟨w, (List.append_nil w).symm, hw⟩
    have hshort := selfDelimiting_uvarint.eval_take_eq failsOnly_uvarint hwhole hc
    cases hd : decode (w.take c) with
    | none => rfl
    | some p =>
        rw [eval, run, uvarint, hd] at hshort
        cases hshort

/-- At a position behind the end there is no number. -/
theorem decode_drop_of_lt (h : b.length < n) : decode (b.drop n) = none := by
  rw [List.drop_eq_nil_of_le (Nat.le_of_lt h)]
  rfl

theorem le_length_of_decode_drop {p : UInt64 × Nat} (h : decode (b.drop n) = some p) : n ≤ b.length := by
  by_contra hlt
  rw [decode_drop_of_lt (Nat.lt_of_not_le hlt)] at h
  cases h

theorem settledAt_decode_drop {v : UInt64} (h : decode (b.drop n) = some (v, used)) :
    SettledAt (fun b => decode (b.drop n)) none b (n + used) :=
  (settledAt_decode h).shift (le_length_of_decode_drop h) (fun _ _ => rfl) fun _ => decode_drop_of_lt

/-- A signed number is settled with the unsigned one that stands for it. -/
theorem settledAt_decodeSigned_drop {x : Int64} (h : decodeSigned (b.drop n) = some (x, used)) :
    SettledAt (fun b => decodeSigned (b.drop n)) none b (n + used) := by
  obtain ⟨⟨u, used'⟩, hu, he⟩ := Option.map_eq_some_iff.1 h
  cases he
  apply (settledAt_decode_drop hu).of_outcome
  · intro b b' hb
    rw [decodeSigned, decodeSigned, hb]
  · intro b hb
    rw [decodeSigned, hb]
    rfl

end Varint

/-! ## Sections -/

namespace Section

theorem selfDelimiting_frame (offset : UInt32) : SelfDelimiting (frame offset) := by
  refine selfDelimiting_bind selfDelimiting_byte fun flag => ?_
  refine selfDelimiting_bind selfDelimiting_word32 fun length => ?_
  refine selfDelimiting_bind (selfDelimiting_take length.toNat) fun payload => ?_
  exact selfDelimiting_bind selfDelimiting_word32 fun checksum => selfDelimiting_pure _

/-- **A section is settled by its frame.** -/
theorem settledAt_read {b : Bytes} {offset : UInt32} {s : Section} (h : read b offset = .ok s) :
    SettledAt (read · offset) (.error .invalidSize) b (offset.toNat + 9 + s.payload.length) := by
  obtain ⟨hoffset, hlength, pre, post, rfl, hpre⟩ := read_eq_ok_iff.1 h
  have hstop : (pre ++ s.stored).length = offset.toNat + 9 + s.payload.length := by
    rw [List.length_append, length_stored, hpre]
    omega
  have hin : offset.toNat + 9 + s.payload.length ≤ (pre ++ s.stored ++ post).length := by
    rw [List.length_append, hstop]
    exact Nat.le_add_right _ _
  apply (selfDelimiting_frame offset).settledAt_tailFrom (failsOnly_frame offset) (by omega) hin
  rw [List.drop_left' hstop, List.append_assoc, List.drop_left' hpre]
  exact run_frame_eq_ok.2 ⟨hoffset, hlength, rfl⟩

end Section

/-! ## Symbols -/

namespace Symbol

variable {b w : Bytes} {offset : UInt32}

theorem selfDelimiting_stored : SelfDelimiting stored :=
  selfDelimiting_bind selfDelimiting_uvarint fun length => selfDelimiting_take length.toNat

theorem failsOnly_stored : FailsOnly (· = .invalidSize) stored :=
  failsOnly_bind failsOnly_uvarint fun length => failsOnly_take length.toNat

/-- **A symbol is settled by its length and its bytes.** -/
theorem settledAt_lookup {length : UInt64} {used : Nat} (h : b.CountedAt offset.toNat 0 length used) :
    SettledAt (lookup · offset) (.error .invalidLength) b (offset.toNat + used + length.toNat) := by
  have hrun := (run_stored_drop h.inside).2 ⟨length, used, h, rfl, rfl⟩
  have hstored := selfDelimiting_stored.settledAt_tailFrom failsOnly_stored h.inside h.fits hrun
  apply hstored.of_outcome
  · intro b b' hb
    unfold lookup
    rw [hb]
  · intro b hb
    rw [lookup, hb]

theorem settledAt_text {length : UInt64} {used : Nat} (h : b.CountedAt offset.toNat 0 length used) :
    SettledAt (text · offset) (.error .invalidLength) b (offset.toNat + used + length.toNat) := by
  apply (settledAt_lookup h).of_outcome
  · intro b b' hb
    rw [text, text, hb]
  · exact fun b => text_of_lookup_error

end Symbol

/-! ## Chunks -/

namespace ChunkStore

variable {b : Bytes} {ref : ChunkRef} {length : UInt64} {used : Nat}

theorem ofBytes_eq_ok_iff {s : ChunkStore} : ofBytes b = .ok s ↔ b.word32At 0 = .ok magic ∧ s = ⟨b⟩ := by
  rw [ofBytes, except_bind_eq_ok]
  constructor
  · rintro ⟨found, hfound, h⟩
    by_cases hmagic : found = magic
    · rw [if_pos hmagic] at h
      cases h
      exact ⟨hmagic ▸ hfound, rfl⟩
    · rw [if_neg hmagic] at h
      cases h
  · rintro ⟨hfound, rfl⟩
    exact ⟨magic, hfound, if_pos rfl⟩

/-- The first word is settled by its four bytes. -/
theorem settledAt_word32At {v : UInt32} (h : b.word32At 0 = .ok v) :
    SettledAt (fun b => b.word32At 0) (.error .invalidSize) b 4 := by
  obtain ⟨-, rest, hrun⟩ := tailFrom_eval_eq_ok.1 h
  obtain rfl : b = ofWord32 v ++ rest := run_word32_eq_ok.1 hrun
  have hrest : (ofWord32 v ++ rest).drop 4 = rest := List.drop_left' (length_ofWord32 v)
  apply selfDelimiting_word32.settledAt_tailFrom failsOnly_word32 (Nat.zero_le _)
  · simp
  · rw [hrest]
    exact hrun

theorem ofBytes_of_word32At_error {e : BlockError} (h : b.word32At 0 = .error e) : ofBytes b = .error e := by
  rw [ofBytes, h]
  rfl

theorem selfDelimiting_frame : SelfDelimiting Chunk.frame := by
  refine selfDelimiting_bind selfDelimiting_uvarint fun length => ?_
  refine selfDelimiting_bind selfDelimiting_byte fun tag => ?_
  exact selfDelimiting_bind (selfDelimiting_take length.toNat) fun payload => selfDelimiting_pure _

/-- **A chunk is settled by its frame**, and so is what is counted when it is read. -/
theorem settledAt_chunk (h : b.CountedAt ref.toNat 1 length used) :
    SettledAt (fun b => chunk ⟨b⟩ ref) ⟨.error .invalidSize, [.increment .decodeErrors 1]⟩ b
      (ref.toNat + used + 1 + length.toNat) := by
  obtain ⟨tag, htag, -⟩ := exists_framed_of_countedAt (s := ⟨b⟩) h
  have hrun := (run_frame_drop h.inside).2 ⟨length, used, h, htag, rfl, rfl⟩
  have hframed := selfDelimiting_frame.settledAt_tailFrom Chunk.failsOnly_frame h.inside h.fits hrun
  apply hframed.of_outcome
  · intro b b' hb
    show chunk ⟨b⟩ ref = chunk ⟨b'⟩ ref
    have hframe : framed ⟨b⟩ ref = framed ⟨b'⟩ ref := hb
    rw [chunk, chunk, hframe]
  · intro b hb
    show chunk ⟨b⟩ ref = _
    have hframe : framed ⟨b⟩ ref = .error .invalidSize := hb
    rw [chunk, hframe]

/-- A chunk that was read stands in a frame. -/
theorem exists_countedAt_of_chunk {s : ChunkStore} {c : Chunk} (h : (s.chunk ref).result = .ok c) :
    ∃ length used, s.buffer.CountedAt ref.toNat 1 length used := by
  by_contra hnone
  rw [result_eq_invalidSize_iff.2 hnone] at h
  cases h

end ChunkStore

/-- **What is read is settled by its frame.** Whatever is read in a buffer, be it a number, a signed number, a
section, a symbol, its text or a chunk, is read alike from every buffer that begins with the same bytes up to the
end of its frame, and from none that is cut off before it: there a section and a chunk are faults of size, a
symbol is one of length, and there is no number. A buffer of chunks opens alike with any bytes at its end, and
with any left out of which the magic word is none. -/
theorem frames_settle_what_is_read (b : Bytes) :
    (∀ n v used, Varint.decode (b.drop n) = some (v, used) →
      SettledAt (fun b => Varint.decode (b.drop n)) none b (n + used)) ∧
    (∀ n x used, Varint.decodeSigned (b.drop n) = some (x, used) →
      SettledAt (fun b => Varint.decodeSigned (b.drop n)) none b (n + used)) ∧
    (∀ offset s, Section.read b offset = .ok s →
      SettledAt (Section.read · offset) (.error .invalidSize) b
        (offset.toNat + 9 + s.payload.length)) ∧
    (∀ offset w, Symbol.lookup b offset = .ok w →
      ∃ length used, b.CountedAt offset.toNat 0 length used ∧
        SettledAt (Symbol.lookup · offset) (.error .invalidLength) b
          (offset.toNat + used + length.toNat)) ∧
    (∀ offset t, Symbol.text b offset = .ok t →
      ∃ length used, b.CountedAt offset.toNat 0 length used ∧
        SettledAt (Symbol.text · offset) (.error .invalidLength) b
          (offset.toNat + used + length.toNat)) ∧
    ∀ store, ChunkStore.ofBytes b = .ok store →
      (∀ s, ChunkStore.ofBytes (b ++ s) = .ok ⟨b ++ s⟩) ∧
      (∀ c, 4 ≤ c → ChunkStore.ofBytes (b.take c) = .ok ⟨b.take c⟩) ∧
      (∀ c < 4, ChunkStore.ofBytes (b.take c) = .error .invalidSize) ∧
      ∀ ref c, (store.chunk ref).result = .ok c →
        ∃ length used, b.CountedAt ref.toNat 1 length used ∧
          SettledAt (fun b => ChunkStore.chunk ⟨b⟩ ref)
            ⟨.error .invalidSize, [.increment .decodeErrors 1]⟩ b
            (ref.toNat + used + 1 + length.toNat) := by
  refine ⟨fun _ _ _ => Varint.settledAt_decode_drop, fun _ _ _ => Varint.settledAt_decodeSigned_drop,
    fun _ _ => Section.settledAt_read, ?_, ?_, ?_⟩
  · intro offset w hw
    obtain ⟨length, used, hcounted, -⟩ := Symbol.lookup_eq_ok_iff_countedAt.1 hw
    exact ⟨length, used, hcounted, Symbol.settledAt_lookup hcounted⟩
  · intro offset t ht
    obtain ⟨length, used, hcounted, -⟩ :=
      Symbol.lookup_eq_ok_iff_countedAt.1 (Symbol.text_eq_ok_iff.1 ht)
    exact ⟨length, used, hcounted, Symbol.settledAt_text hcounted⟩
  · intro store hstore
    obtain ⟨hmagic, rfl⟩ := ChunkStore.ofBytes_eq_ok_iff.1 hstore
    have hword := ChunkStore.settledAt_word32At hmagic
    refine ⟨fun s => ?_, fun c hc => ?_, fun c hc => ?_, fun ref c hc => ?_⟩
    · exact ChunkStore.ofBytes_eq_ok_iff.2 ⟨(hword.extended s).trans hmagic, rfl⟩
    · exact ChunkStore.ofBytes_eq_ok_iff.2 ⟨(hword.kept c hc).trans hmagic, rfl⟩
    · exact ChunkStore.ofBytes_of_word32At_error (hword.cut c hc)
    · obtain ⟨length, used, hcounted⟩ := ChunkStore.exists_countedAt_of_chunk hc
      exact ⟨length, used, hcounted, ChunkStore.settledAt_chunk hcounted⟩

/-- A chunk, whose frame holds a symbol as well, a number, and a section, each cut off before its last byte. -/
theorem frames_settle_what_is_read_cutInside :
    let b : Bytes := [0x85, 0xbd, 0x40, 0xdd, 2, 1, 97, 98, 0xac, 2, 1, 0, 0, 0, 1, 65, 0, 0, 0, 9]
    (Varint.decode ((b ++ [7]).drop 8) = some (300, 2) ∧ Varint.decode ((b.take 9).drop 8) = none) ∧
      (Varint.decodeSigned ((b.take 10).drop 8) = some (150, 2) ∧
        Varint.decodeSigned ((b.take 9).drop 8) = none) ∧
      (Section.read (b ++ [7]) 10 = .ok ⟨10, 1, [65], 9⟩ ∧
        Section.read (b.take 19) 10 = .error .invalidSize) ∧
      (Symbol.lookup (b.take 7) 4 = .ok [1, 97] ∧
        Symbol.lookup (b.take 6) 4 = .error .invalidLength ∧
        Symbol.text (b.take 6) 4 = .error .invalidLength) ∧
      ChunkStore.ofBytes (b.take 7) = .ok ⟨b.take 7⟩ ∧
      (ChunkStore.chunk ⟨b.take 8⟩ 4).result = .ok ⟨.xor, [97, 98]⟩ ∧
      (ChunkStore.chunk ⟨b.take 7⟩ 4).result = .error .invalidSize := by
  intro b
  obtain ⟨hnumber, hsigned, hsection, hsymbol, htext, hchunk⟩ := frames_settle_what_is_read b
  have h300 : Varint.decode (b.drop 8) = some (300, 2) := by decide
  have h150 : Varint.decodeSigned (b.drop 8) = some (150, 2) := by decide
  have hread : Section.read b 10 = .ok ⟨10, 1, [65], 9⟩ := by decide +kernel
  have hlookup : Symbol.lookup b 4 = .ok [1, 97] := by decide +kernel
  have hstring : Symbol.text b 4 = .ok "\x01a" := by decide +kernel
  have hopen : ChunkStore.ofBytes b = .ok ⟨b⟩ := by decide +kernel
  have hframed : (ChunkStore.chunk ⟨b⟩ 4).result = .ok ⟨.xor, [97, 98]⟩ := by decide +kernel
  -- the length in front of the symbol and the chunk takes one byte and says two
  have htwo : ∀ {gap length used}, b.CountedAt 4 gap length used → length = 2 ∧ used = 1 := by
    intro gap length used hcounted
    have h2 : Varint.decode (b.drop 4) = some (2, 1) := by decide
    have heq := hcounted.counted
    rw [h2, Option.some.injEq, Prod.mk.injEq] at heq
    exact ⟨heq.1.symm, heq.2.symm⟩
  obtain ⟨l₁, u₁, hat₁, hsymbol⟩ := hsymbol 4 _ hlookup
  obtain ⟨l₂, u₂, hat₂, htext⟩ := htext 4 _ hstring
  obtain ⟨-, hopens, -, hchunk⟩ := hchunk _ hopen
  obtain ⟨l₃, u₃, hat₃, hchunk⟩ := hchunk 4 _ hframed
  obtain ⟨rfl, rfl⟩ := htwo hat₁
  obtain ⟨rfl, rfl⟩ := htwo hat₂
  obtain ⟨rfl, rfl⟩ := htwo hat₃
  have hnumber := hnumber 8 _ _ h300
  have hsigned := hsigned 8 _ _ h150
  have hsection := hsection 10 _ hread
  refine ⟨⟨(hnumber.extended [7]).trans h300, hnumber.cut 9 (by decide)⟩,
    ⟨(hsigned.kept 10 (by decide)).trans h150, hsigned.cut 9 (by decide)⟩,
    ⟨(hsection.extended [7]).trans hread, hsection.cut 19 (by decide)⟩,
    ⟨(hsymbol.kept 7 (by decide)).trans hlookup, hsymbol.cut 6 (by decide), htext.cut 6 (by decide)⟩,
    hopens 7 (by decide), ?_, ?_⟩
  · exact (congrArg Recorded.result (hchunk.kept 8 (by decide))).trans hframed
  · exact congrArg Recorded.result (hchunk.cut 7 (by decide))

end SeriesBlock
