import SeriesBlock.Index
import SeriesBlock.Proofs.Framing
import SeriesBlock.Proofs.Machine.Cursor
import SeriesBlock.Proofs.Maps
import SeriesBlock.Proofs.Recorded

/-!
# Readers on the machine

Sections, symbols and chunks are cut out of their buffer by slices whose bounds are computed apart
from the cursor that checked them: from the offset and the declared length, or from how much of the
buffer remains. On a buffer that the machine can address no such slice leaves the buffer and no sum
overflows, so each reader ends in the outcome of the function of its name. The readers of maps and of
stored tuples go by cursor alone.
-/

set_option autoImplicit false

namespace SeriesBlock.Machine

open Run Bytes

variable {α β : Type}

/-! ## Sections -/

/-- A sum that stays at the largest number of the machine instead of overflowing. -/
def addSaturating (a b : Nat) : Nat :=
  min (a + b) (2 ^ 64 - 1)

/-- The section at an offset. -/
def readSection (b : Bytes) (offset : UInt32) : Run Section := do
  let d ← cursorAt b offset.toNat
  if d.length < 5 then fail .invalidSize
  else
    let (flag, d) ← byte d
    let (length, d) ← word32 d
    if d.length < addSaturating length.toNat 4 then fail .invalidSize
    else
      let start ← add offset.toNat 5
      let stop ← add start length.toNat
      let payload ← slice b start stop
      let (_, d) ← take length.toNat d
      let (checksum, _) ← word32 d
      pure ⟨offset, flag, payload, checksum⟩

theorem byte_cons (x : UInt8) (d : Bytes) : byte (x :: d) = pure (x, d) :=
  rfl

theorem word32_append (v : UInt32) (d : Bytes) : word32 (ofWord32 v ++ d) = pure (v, d) := by
  rw [word32_eq, Decoder.step_eq_ok.2 (Decoder.run_word32_eq_ok.2 rfl)]
  rfl

theorem take_of_le {n : Nat} {d : Bytes} (h : n ≤ d.length) :
    take n d = pure (d.take n, d.drop n) := by
  rw [take, if_neg (by omega), splitAt_of_le h]

/-- **Reading a section does not trap**: the payload is sliced inside the buffer. -/
theorem readSection_eq {b : Bytes} (hb : b.length < 2 ^ 64) (offset : UInt32) :
    readSection b offset = ends (Section.read b offset) := by
  refine bind_ends rfl ?_
  intro d hd
  obtain ⟨pre, rfl, hp⟩ := tailFrom_eq_ok.1 hd
  rw [List.length_append, hp] at hb
  by_cases h5 : d.length < 5
  · rw [if_pos h5, Section.eval_frame_of_short h5]
    rfl
  · obtain ⟨flag, length, rest, rfl⟩ := Section.exists_head (b := d) (by omega)
    simp only [List.length_cons, List.length_append, length_ofWord32] at hb
    -- a declared length is below 2 ^ 32, so the sum never saturates
    have hlen : length.toNat < 2 ^ 32 := length.toNat_lt
    rw [if_neg h5, byte_cons, pure_then]
    show (word32 (ofWord32 length ++ rest) >>= _) = _
    rw [word32_append, pure_then, Section.eval_frame_head]
    show (if rest.length < addSaturating length.toNat 4 then _ else _ : Run Section) = _
    have hsat : addSaturating length.toNat 4 = length.toNat + 4 := by
      unfold addSaturating
      omega
    rw [hsat]
    by_cases hl : length.toNat + 4 ≤ rest.length
    · -- the declared payload lies inside the buffer, and so do its bounds
      have hdrop : (flag :: (ofWord32 length ++ rest)).drop 5 = rest :=
        List.drop_left' (length_ofWord32 length)
      have hslice : slice (pre ++ flag :: (ofWord32 length ++ rest)) (offset.toNat + 5)
          (offset.toNat + 5 + length.toNat) =
          pure (((flag :: (ofWord32 length ++ rest)).drop 5).take length.toNat) :=
        slice_append hp (by rw [List.length_cons, List.length_append, length_ofWord32]; omega)
      obtain ⟨checksum, post, hpost⟩ := Decoder.exists_word32 (b := rest.drop length.toNat)
        (by rw [List.length_drop]; omega)
      rw [if_neg (by omega), if_pos hl, add_of_lt (by omega), pure_then, add_of_lt (by omega),
        pure_then, hslice, hdrop, pure_then, take_of_le (by omega), pure_then]
      show (word32 (rest.drop length.toNat) >>= _) = _
      rw [hpost, word32_append, pure_then, List.take_left' (length_ofWord32 checksum),
        ofNat_toNat_ofWord32]
      rfl
    · rw [if_pos (by omega), if_neg hl]
      rfl

/-- The section at an offset, verified if the options ask for it. -/
def readVerified (options : ReaderOptions) (b : Bytes) (offset : UInt32) : Run Section := do
  let s ← readSection b offset
  if options.verifyChecksums then
    let _ ← ends s.verify
    pure s
  else pure s

theorem readVerified_eq {b : Bytes} (hb : b.length < 2 ^ 64) (options : ReaderOptions)
    (offset : UInt32) :
    readVerified options b offset = ends (Index.readSection options b offset).result := by
  unfold readVerified Index.readSection
  rw [readSection_eq hb]
  cases Section.read b offset with
  | error e => rfl
  | ok s =>
      rw [ends_ok_bind]
      cases options.verifyChecksums with
      | false => rfl
      | true =>
          by_cases hv : Checksum.ofSection s.flag s.payload = s.checksum
          · simp only [Section.verify_eq_ok.2 hv]
            rfl
          · simp only [Section.verify_of_ne hv]
            rfl

/-! ## Maps -/

/-- The next entry of a map. -/
def entry (d : Bytes) : Run ((Bytes × UInt32) × Bytes) := do
  let (length, d) ← uvarint d
  let (key, d) ← take length.toNat d
  let (offset, d) ← uvarint32 d
  pure ((key, offset), d)

theorem entry_eq (d : Bytes) : entry d = ends (OffsetMap.entry.step d) := by
  refine bind_step (uvarint_eq d) ?_
  intro length d₁ _
  refine bind_step (take_eq length.toNat d₁) ?_
  intro key d₂ _
  refine bind_step (uvarint32_eq d₂) ?_
  intro offset d₃ _
  rfl

/-- Inserts the entries of a payload into a map until the payload is used up. -/
def insertEntries (m : OffsetMap) (d : Bytes) : Run OffsetMap :=
  if d = [] then pure m
  else
    match _h : entry d with
    | .error t => trap t
    | .ok (.error e) => fail e
    | .ok (.ok ((key, offset), rest)) => insertEntries (m.insert key offset) rest
  termination_by d.length
  decreasing_by
    rw [entry_eq] at _h
    exact OffsetMap.entry_length (Decoder.step_eq_ok.1 (Except.ok.inj _h))

theorem insertEntries_of_ne {m : OffsetMap} {d : Bytes} (h : d ≠ []) :
    insertEntries m d = entry d >>= fun p => insertEntries (m.insert p.1.1 p.1.2) p.2 := by
  rw [insertEntries, if_neg h]
  split
  · next t he => rw [he]; rfl
  · next e he => rw [he]; rfl
  · next key offset rest he => rw [he]; rfl

/-- Inserting entry by entry ends in the map of all entries. -/
theorem insertEntries_eq (m : OffsetMap) (d : Bytes) :
    insertEntries m d = ends (OffsetMap.readEntries d >>= fun es =>
      .ok (es.foldl (fun m e => m.insert e.1 e.2) m)) := by
  induction hn : d.length using Nat.strongRecOn generalizing m d with
  | ind n ih =>
      -- on the length of the payload: an entry takes at least one byte
      by_cases hd : d = []
      · subst hd
        rw [insertEntries, if_pos rfl, OffsetMap.readEntries_nil]
        rfl
      · rw [insertEntries_of_ne hd, OffsetMap.readEntries_of_ne hd, entry_eq]
        cases hs : OffsetMap.entry.step d with
        | error e => rfl
        | ok p =>
            obtain ⟨⟨key, offset⟩, rest⟩ := p
            have hlt := OffsetMap.entry_length (Decoder.step_eq_ok.1 hs)
            show insertEntries (m.insert key offset) rest = _
            rw [ih rest.length (by omega) (m.insert key offset) rest rfl]
            show _ = ends ((OffsetMap.readEntries rest >>= fun es => .ok ((key, offset) :: es)) >>= _)
            cases OffsetMap.readEntries rest with
            | error e => rfl
            | ok es => rfl

/-- The map that a section holds. -/
def readMap (options : ReaderOptions) (b : Bytes) (offset : UInt32) : Run OffsetMap := do
  let s ← readVerified options b offset
  let payload ← ends s.standardPayload
  insertEntries .empty payload

theorem readMap_eq {b : Bytes} (hb : b.length < 2 ^ 64) (options : ReaderOptions)
    (offset : UInt32) :
    readMap options b offset = ends (Index.readMap options b offset).result := by
  rw [Index.readMap, Recorded.result_bind]
  refine bind_ends (readVerified_eq hb options offset) ?_
  intro s _
  refine bind_ends rfl ?_
  intro payload _
  rw [insertEntries_eq]
  rw [OffsetMap.ofPayload]
  cases OffsetMap.readEntries payload with
  | error e => rfl
  | ok es => rfl

/-! ## Symbols -/

/-- The bytes of the symbol at an offset. -/
def lookup (b : Bytes) (offset : UInt32) : Run Bytes := do
  let d ← (cursorAt b offset.toNat).mapError fun _ => .invalidLength
  let (length, rest) ← (uvarint d).mapError fun _ => .invalidLength
  let used ← sub d.length rest.length
  if rest.length < length.toNat then fail .invalidLength
  else
    let start ← add offset.toNat used
    let stop ← add start length.toNat
    slice b start stop

theorem lookup_eq_mapError (b : Bytes) (offset : UInt32) :
    Symbol.lookup b offset =
      (b.tailFrom offset.toNat >>= Symbol.stored.eval).mapError fun _ => .invalidLength := by
  unfold Symbol.lookup
  cases b.tailFrom offset.toNat >>= Symbol.stored.eval with
  | ok w => rfl
  | error e => rfl

/-- **Looking a symbol up does not trap**: it is sliced inside the buffer. -/
theorem lookup_eq {b : Bytes} (hb : b.length < 2 ^ 64) (offset : UInt32) :
    lookup b offset = ends (Symbol.lookup b offset) := by
  rw [lookup, cursorAt, lookup_eq_mapError, mapError_ends]
  cases hd : b.tailFrom offset.toNat with
  | error e => rfl
  | ok d =>
      obtain ⟨pre, rfl, hp⟩ := tailFrom_eq_ok.1 hd
      show ((uvarint d).mapError _ >>= _) = ends ((Symbol.stored.eval d).mapError _)
      rw [uvarint_eq, mapError_ends, Decoder.eval_eq_step, Symbol.stored, Decoder.step_bind]
      cases hu : Decoder.uvarint.step d with
      | error e => rfl
      | ok p =>
          obtain ⟨length, rest⟩ := p
          have hrun := Decoder.step_eq_ok.1 hu
          obtain ⟨used, hv, hrest⟩ := Decoder.run_uvarint_eq_ok.1 hrun
          have hle := (Varint.decode_used hv).2.1
          have hlen : rest.length = d.length - used := by rw [hrest, List.length_drop]
          rw [List.length_append, hp] at hb
          show (sub d.length rest.length >>= _) = ends
            (((Decoder.take length.toNat).step rest >>= fun p => .ok p.1).mapError _)
          -- the cursor moved by what the length used
          rw [sub_of_le (by omega), pure_then]
          -- past the check, the symbol lies between the length and the end of the buffer
          by_cases hl : length.toNat ≤ rest.length
          · have hslice : slice (pre ++ d) (offset.toNat + used)
                (offset.toNat + used + length.toNat) =
                pure ((d.drop used).take length.toNat) := slice_append hp (by omega)
            have htake : (Decoder.take length.toNat).step rest =
                .ok (rest.take length.toNat, rest.drop length.toNat) :=
              Decoder.step_eq_ok.2 (if_pos hl)
            have hn : d.length - rest.length = used := by omega
            rw [if_neg (by omega), hn, add_of_lt (by omega), pure_then, add_of_lt (by omega),
              pure_then, hslice, ← hrest, htake]
            rfl
          · rw [if_pos (by omega),
              Decoder.step_of_run_error (Decoder.run_take_of_short (by omega))]
            rfl

/-- The symbol at an offset as text. -/
def text (b : Bytes) (offset : UInt32) : Run String := do
  let w ← lookup b offset
  match Utf8.decode w with
  | .ok s => pure s
  | .error fault => fail (.invalidUtf8 fault.message)

theorem text_eq {b : Bytes} (hb : b.length < 2 ^ 64) (offset : UInt32) :
    text b offset = ends (Symbol.text b offset) := by
  refine bind_ends (lookup_eq hb offset) ?_
  intro w _
  cases Utf8.decode w with
  | ok s => rfl
  | error fault => rfl

end SeriesBlock.Machine
