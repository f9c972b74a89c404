import SeriesBlock.Proofs.Machine.Reader
import SeriesBlock.Proofs.Record

/-!
# Records, tuples and chunks on the machine

These readers reserve room for as many elements as a record declares, count the chunks they leave
out, and address tuples by products of a position and a width. A declared number passed the check
against the bytes that remain, so the room never exceeds the buffer; the count of chunks left out
stays below the declared number (`chunkEntries_eq`); and the width of a tuple fits because the
tuples were opened with an arity that does.
-/

set_option autoImplicit false

namespace SeriesBlock.Machine

open Run Bytes

variable {α β : Type}

/-- A run that ends as an outcome does, followed by runs that end as decoders do. -/
theorem bind_except {m : Run α} {r : Except BlockError α} {f : α → Decoder β}
    {g : α → Run (β × Bytes)} {b : Bytes} (hm : m = ends r)
    (hg : ∀ a, r = .ok a → g a = ends ((f a).step b)) :
    (m >>= g) = ends ((Decoder.ofExcept r >>= f).step b) := by
  rw [Decoder.step_bind]
  subst hm
  cases r with
  | ok a => exact hg a rfl
  | error e => rfl

/-- Runs for all elements of a list, each with its own outcome. -/
def attemptAll (f : α → Run β) : List α → Run (List (Except BlockError β))
  | [] => pure []
  | a :: as => do
    let r ← (f a).attempt
    let rs ← attemptAll f as
    pure (r :: rs)

theorem attemptAll_eq {f : α → Run β} {g : α → Except BlockError β} {as : List α}
    (h : ∀ a ∈ as, f a = ends (g a)) : attemptAll f as = pure (as.map g) := by
  induction as with
  | nil => rfl
  | cons a as ih =>
      rw [attemptAll, h a List.mem_cons_self, attempt_ends, ends_ok_bind,
        ih fun a' ha' => h a' (List.mem_cons_of_mem a ha')]
      rfl

/-! ## Series -/

/-- Reads `n` labels and looks their symbols up. -/
def labels (b : Bytes) : Nat → Bytes → Run (List Label × Bytes)
  | 0, d => pure ([], d)
  | n + 1, d => do
    let (nameOffset, d) ← uvarint32 d
    let (valueOffset, d) ← uvarint32 d
    let name ← text b nameOffset
    let value ← text b valueOffset
    let (more, d) ← labels b n d
    pure (⟨name, value⟩ :: more, d)

theorem labels_eq {b : Bytes} (hb : b.length < 2 ^ 64) (n : Nat) (d : Bytes) :
    labels b n d = ends ((Series.readLabels b n).step d) := by
  induction n generalizing d with
  | zero => rfl
  | succ n ih =>
      refine bind_step (uvarint32_eq d) ?_
      intro nameOffset d₁ _
      refine bind_step (uvarint32_eq d₁) ?_
      intro valueOffset d₂ _
      refine bind_except (text_eq hb nameOffset) ?_
      intro name _
      refine bind_except (text_eq hb valueOffset) ?_
      intro value _
      refine bind_step (ih d₂) ?_
      intro more d₃ _
      rfl

/-- Reads the last `left` of `declared` chunk entries, after `i` entries of which `kept` were kept
and `skipped` left out. An entry that starts after the range leaves out all that follow. -/
def chunkEntries (mint maxt : Timestamp) (declared : Nat) (left i : Nat) (kept : List ChunkMeta)
    (skipped : Nat) (d : Bytes) : Run (List ChunkMeta × Nat) :=
  match left with
  | 0 => pure (kept, skipped)
  | left + 1 => do
    let (first, d) ← varint d
    if maxt < first then
      let rest ← sub declared i
      let skipped ← add skipped rest
      pure (kept, skipped)
    else
      let (last, d) ← varint d
      let (ref, d) ← uvarint32 d
      if last < mint then
        let skipped ← add skipped 1
        chunkEntries mint maxt declared left (i + 1) kept skipped d
      else chunkEntries mint maxt declared left (i + 1) (kept ++ [⟨ref, first, last⟩]) skipped d

/-- **Reading chunk entries does not trap**: what is left out so far and what is still to be read
make up no more than the declared number. -/
theorem chunkEntries_eq {mint maxt : Timestamp} {declared left i skipped : Nat}
    {kept : List ChunkMeta} {d : Bytes} (hd : declared < 2 ^ 64) (hi : i + left = declared)
    (hs : skipped ≤ i) :
    chunkEntries mint maxt declared left i kept skipped d =
      ends ((Series.readChunks mint maxt left).eval d >>= fun p =>
        .ok (kept ++ p.1, skipped + p.2)) := by
  induction left generalizing i kept skipped d with
  | zero =>
      show _ = ends (.ok (kept ++ [], skipped + 0))
      rw [List.append_nil]
      rfl
  | succ left ih =>
      rw [chunkEntries, Series.eval_readChunks_succ, bind_assoc]
      refine bind_ends (varint_eq d) ?_
      rintro ⟨first, d₁⟩ _
      show (if maxt < first then _ else _ : Run (List ChunkMeta × Nat)) = _
      -- all that are left are left out, or the next one is read whole
      by_cases hmax : maxt < first
      · rw [if_pos hmax, if_pos hmax, sub_of_le (by omega), pure_then, add_of_lt (by omega),
          pure_then]
        show _ = ends (.ok (kept ++ [], skipped + (left + 1)))
        rw [List.append_nil, show declared - i = left + 1 by omega]
        rfl
      · rw [if_neg hmax, if_neg hmax, bind_assoc]
        refine bind_ends (varint_eq d₁) ?_
        rintro ⟨last, d₂⟩ _
        rw [bind_assoc]
        refine bind_ends (uvarint32_eq d₂) ?_
        rintro ⟨ref, d₃⟩ _
        rw [bind_assoc]
        show (if last < mint then _ else _ : Run (List ChunkMeta × Nat)) = _
        by_cases hmin : last < mint
        · simp only [if_pos hmin]
          rw [add_of_lt (by omega), pure_then, ih (by omega) (by omega)]
          congr 2
          funext p
          show Except.ok (kept ++ p.1, skipped + 1 + p.2) = .ok (kept ++ p.1, skipped + (p.2 + 1))
          rw [Nat.add_assoc, Nat.add_comm 1]
        · simp only [if_neg hmin]
          rw [ih (by omega) (by omega)]
          congr 2
          funext p
          show Except.ok (kept ++ [_] ++ p.1, skipped + p.2) =
            .ok (kept ++ (⟨ref, first, last⟩ :: p.1), skipped + p.2)
          rw [List.append_assoc]
          rfl

/-- The record at a reference, read for a range. -/
def record (b : Bytes) (ref : SeriesRef) (mint maxt : Timestamp) :
    Run (List Label × List ChunkMeta × Nat) := do
  let d ← cursorAt b ref.toNat
  let (offsets, d) ← count 1 d
  if offsets % 2 = 1 then fail .invalidSize
  else
    let _ ← reserve b.length (offsets / 2)
    let (ls, d) ← labels b (offsets / 2) d
    let (declared, d) ← count 3 d
    let _ ← reserve b.length declared
    let (kept, skipped) ← chunkEntries mint maxt declared declared 0 [] 0 d
    pure (ls, kept, skipped)

/-- **Reading a record does not trap**: the room for its labels and its chunks is bounded by the
bytes that remain. -/
theorem record_eq {b : Bytes} (hb : b.length < 2 ^ 64) (ref : SeriesRef) (mint maxt : Timestamp) :
    record b ref mint maxt =
      ends (b.tailFrom ref.toNat >>= (Series.record b mint maxt).eval) := by
  refine bind_ends rfl ?_
  intro d hd
  obtain ⟨pre, hpre, -⟩ := tailFrom_eq_ok.1 hd
  have hdb : d.length ≤ b.length := by
    rw [hpre, List.length_append]
    omega
  refine bind_eval (count_eq 1 d) ?_
  intro offsets d₁ h₁
  have hused₁ := Decoder.uses_count 1 h₁
  obtain ⟨u, -, hu, hle⟩ := Decoder.run_count_eq_ok.1 h₁
  rw [Nat.max_self, Nat.div_one, hu] at hle
  show (if offsets % 2 = 1 then _ else _ : Run (List Label × List ChunkMeta × Nat)) = _
  by_cases hodd : offsets % 2 = 1
  · rw [if_pos hodd, if_pos hodd]
    rfl
  · rw [if_neg hodd, if_neg hodd, reserve_of_le (by omega), pure_then]
    refine bind_eval (labels_eq hb (offsets / 2) d₁) ?_
    intro ls d₂ h₂
    have hused₂ := Series.uses_readLabels b (offsets / 2) h₂
    refine bind_eval (count_eq 3 d₂) ?_
    intro declared d₃ h₃
    have hused₃ := Decoder.uses_count 3 h₃
    obtain ⟨w, -, hw, hle₃⟩ := Decoder.run_count_eq_ok.1 h₃
    -- the number of chunks passed the check against the bytes that remain
    have hdiv := Nat.div_le_self d₃.length (max 3 1)
    show (reserve b.length declared >>= _) = _
    rw [reserve_of_le (by omega), pure_then, chunkEntries_eq (by omega) (by omega) (by omega),
      Decoder.eval_bind, Decoder.eval_eq_step, bind_assoc]
    cases (Series.readChunks mint maxt declared).step d₃ with
    | error e => rfl
    | ok p =>
        show ends (.ok (ls, [] ++ p.1.1, 0 + p.1.2)) = ends (.ok (ls, p.1.1, p.1.2))
        rw [List.nil_append, Nat.zero_add]

/-! ## Stored tuples -/

/-- A product that is refused where it would overflow. -/
def mulChecked (a b : Nat) : Run Nat :=
  if a * b < 2 ^ 64 then pure (a * b) else fail .invalidSize

/-- A sum that is refused where it would overflow. -/
def addChecked (a b : Nat) : Run Nat :=
  if a + b < 2 ^ 64 then pure (a + b) else fail .invalidSize

/-- The bytes from `start` up to `stop`, refused where they leave the payload. -/
def sliceChecked (b : Bytes) (start stop : Nat) : Run Bytes :=
  if start ≤ stop ∧ stop ≤ b.length then pure ((b.drop start).take (stop - start))
  else fail .invalidSize

/-- How many tuples there are. -/
def tupleCount (t : StoredTuples) : Run Nat := do
  let width ← mul 4 t.arity.toNat
  div t.payload.length width

theorem tupleCount_eq (t : StoredTuples) : tupleCount t = pure t.length := by
  have hpos := t.arity_pos
  rw [tupleCount, mul_of_lt t.width_fits, pure_then, div_of_ne (by omega)]
  rfl

/-- Looks `n` symbols up, offset by offset. -/
def resolve (symbols : Bytes) : Nat → Bytes → Run (List String × Bytes)
  | 0, d => pure ([], d)
  | n + 1, d => do
    let (offset, d) ← word32 d
    let s ← text symbols offset
    let (more, d) ← resolve symbols n d
    pure (s :: more, d)

theorem resolve_eq {symbols : Bytes} (hs : symbols.length < 2 ^ 64) (n : Nat) (d : Bytes) :
    resolve symbols n d = ends ((StoredTuples.resolve symbols n).step d) := by
  induction n generalizing d with
  | zero => rfl
  | succ n ih =>
      refine bind_step (word32_eq d) ?_
      intro offset d₁ _
      refine bind_except (text_eq hs offset) ?_
      intro s _
      refine bind_step (ih d₁) ?_
      intro more d₂ _
      rfl

/-- The bytes of the tuple with number `i`. A product, a sum or a slice that does not fit is refused. -/
def tupleBytes (t : StoredTuples) (i : UInt64) : Run Bytes := do
  let width ← mul 4 t.arity.toNat
  let start ← mulChecked i.toNat width
  let stop ← addChecked start width
  sliceChecked t.payload start stop

/-- **A position too far out is refused**, by whichever of the three it does not fit. -/
theorem tupleBytes_eq {t : StoredTuples} (hp : t.payload.length < 2 ^ 64) (i : UInt64) :
    tupleBytes t i =
      ends (if i.toNat * t.width + t.width ≤ t.payload.length then
        .ok ((t.payload.drop (i.toNat * t.width)).take t.width)
      else .error .invalidSize) := by
  have hpos : 0 < t.width := Nat.mul_pos (by decide) t.arity_pos
  have hwidth : mul 4 t.arity.toNat = pure t.width := mul_of_lt t.width_fits
  rw [tupleBytes, hwidth, pure_then]
  by_cases hin : i.toNat * t.width + t.width ≤ t.payload.length
  · rw [if_pos hin, mulChecked, if_pos (by omega), pure_then, addChecked, if_pos (by omega),
      pure_then, sliceChecked, if_pos ⟨Nat.le_add_right _ _, hin⟩, Nat.add_sub_cancel_left]
    rfl
  · rw [if_neg hin, mulChecked]
    by_cases hmul : i.toNat * t.width < 2 ^ 64
    · rw [if_pos hmul, pure_then, addChecked]
      by_cases hadd : i.toNat * t.width + t.width < 2 ^ 64
      · rw [if_pos hadd, pure_then, sliceChecked, if_neg fun h => hin h.2]
        rfl
      · rw [if_neg hadd]
        rfl
    · rw [if_neg hmul]
      rfl

/-- The tuple with number `i`. -/
def tupleAt (t : StoredTuples) (i : UInt64) : Run (List String) := do
  let width ← mul 4 t.arity.toNat
  let start ← mulChecked i.toNat width
  let stop ← addChecked start width
  let raw ← sliceChecked t.payload start stop
  let _ ← reserve t.symbols.length t.arity.toNat
  let (tuple, _) ← resolve t.symbols t.arity.toNat raw
  pure tuple

/-- **Reading a tuple does not trap**, at any position, on tuples whose payload is part of the buffer
that holds their symbols. -/
theorem tupleAt_eq {t : StoredTuples} (hs : t.symbols.length < 2 ^ 64)
    (hp : t.payload.length ≤ t.symbols.length) (i : UInt64) :
    tupleAt t i = ends (t.at? i) := by
  have hwidth : t.width = 4 * t.arity.toNat := rfl
  have hbytes : tupleAt t i = tupleBytes t i >>= fun raw => (do
      let _ ← reserve t.symbols.length t.arity.toNat
      let (tuple, _) ← resolve t.symbols t.arity.toNat raw
      pure tuple) := by
    simp only [tupleBytes, bind_bind]
    rfl
  rw [hbytes, tupleBytes_eq (by omega), StoredTuples.at?]
  by_cases hin : i.toNat * t.width + t.width ≤ t.payload.length
  · rw [if_pos hin, if_pos hin, ends_ok_bind, reserve_of_le (by omega), pure_then, resolve_eq hs,
      Decoder.eval_eq_step]
    exact bind_ends rfl fun p _ => rfl
  · rw [if_neg hin, if_neg hin]
    rfl

/-- All tuples in order, each with its own outcome. -/
def tuples (t : StoredTuples) : Run (List (Except BlockError (List String))) := do
  let n ← tupleCount t
  attemptAll (fun i => tupleAt t (UInt64.ofNat i)) (List.range n)

theorem tuples_eq {t : StoredTuples} (hs : t.symbols.length < 2 ^ 64)
    (hp : t.payload.length ≤ t.symbols.length) : tuples t = pure t.toList := by
  rw [tuples, tupleCount_eq, pure_then, attemptAll_eq fun i _ => tupleAt_eq hs hp (UInt64.ofNat i)]
  rfl

/-! ## Chunks -/

/-- The tag and the payload framed at a reference. -/
def framed (b : Bytes) (ref : ChunkRef) : Run (UInt8 × Bytes) := do
  let d ← cursorAt b ref.toNat
  let (length, d) ← uvarint d
  let (tag, d) ← byte d
  let start ← sub b.length d.length
  let _ ← take length.toNat d
  let stop ← add start length.toNat
  let payload ← slice b start stop
  pure (tag, payload)

/-- **Reading a chunk's frame does not trap**: the payload is sliced inside the buffer. -/
theorem framed_eq {s : ChunkStore} (hb : s.buffer.length < 2 ^ 64) (ref : ChunkRef) :
    framed s.buffer ref = ends (s.framed ref) := by
  refine bind_ends rfl ?_
  intro d hd
  obtain ⟨pre, hpre, -⟩ := tailFrom_eq_ok.1 hd
  refine bind_eval (uvarint_eq d) ?_
  intro length d₁ h₁
  obtain ⟨used, -, rfl⟩ := Decoder.run_uvarint_eq_ok.1 h₁
  refine bind_eval (byte_eq _) ?_
  intro tag d₂ h₂
  -- the bytes before the cursor make up the rest of the buffer
  have hsplit : s.buffer = (pre ++ d.take used ++ [tag]) ++ d₂ := by
    rw [hpre, List.append_assoc, List.append_assoc, List.singleton_append,
      ← Decoder.run_byte_eq_ok.1 h₂, List.take_append_drop]
  have hlen : s.buffer.length = (pre ++ d.take used ++ [tag]).length + d₂.length := by
    rw [← List.length_append, ← hsplit]
  have hstart : s.buffer.length - d₂.length = (pre ++ d.take used ++ [tag]).length := by omega
  have hdrop : s.buffer.drop (s.buffer.length - d₂.length) = d₂ := by
    rw [hstart, hsplit, List.drop_left]
  show (sub s.buffer.length d₂.length >>= _) = _
  rw [sub_of_le (by omega), pure_then]
  refine bind_eval (take_eq length.toNat d₂) ?_
  intro payload rest h₃
  obtain ⟨hd₂, hl⟩ := Decoder.run_take_eq_ok.1 h₃
  -- the payload was there when the cursor passed it
  have hle : length.toNat ≤ d₂.length := by
    rw [hd₂, List.length_append]
    omega
  rw [add_of_lt (by omega), pure_then, slice_of_le _ (by omega), pure_then, hdrop, hd₂,
    List.take_left' hl]
  rfl

/-- The chunk at a reference. -/
def chunk (b : Bytes) (ref : ChunkRef) : Run Chunk := do
  let (tag, payload) ← framed b ref
  ends (Chunk.ofTagged tag payload)

theorem chunk_eq {s : ChunkStore} (hb : s.buffer.length < 2 ^ 64) (ref : ChunkRef) :
    chunk s.buffer ref = ends (s.chunk ref).result := by
  rw [s.result_chunk]
  exact bind_ends (framed_eq hb ref) fun p _ => rfl

end SeriesBlock.Machine
