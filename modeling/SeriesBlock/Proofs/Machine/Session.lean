import SeriesBlock.Proofs.Machine.Record
import SeriesBlock.Proofs.Opening
import SeriesBlock.Proofs.Request

/-!
# Sessions on the machine

The operations of an index in the operations of the machine, from opening both buffers of a block to
each request, and the main result: on every pair of buffers that the machine can address, with
checksums verified or not, every request with any arguments runs without a trap and ends in the
outcome of the operation (`session_never_traps`).

A selection decodes all of its series, whichever fail: this covers every order in which they may be
decoded and every point at which the decoding may be given up.
-/

set_option autoImplicit false

namespace SeriesBlock.Machine

open Run Bytes

/-! ## Opening -/

/-- Opens the buffer of chunks. -/
def openStore (b : Bytes) : Run ChunkStore := do
  let d ← cursorAt b 0
  let (found, _) ← word32 d
  if found = ChunkStore.magic then pure ⟨b⟩ else fail (.invalidMagic ChunkStore.magic found)

theorem openStore_eq (b : Bytes) : openStore b = ends (ChunkStore.ofBytes b) := by
  unfold openStore ChunkStore.ofBytes Bytes.word32At
  rw [bind_assoc]
  refine bind_ends rfl ?_
  intro d _
  rw [Decoder.eval_eq_step, bind_assoc]
  refine bind_ends (word32_eq d) ?_
  rintro ⟨found, rest⟩ _
  show (if found = ChunkStore.magic then _ else _ : Run ChunkStore) =
    ends (if found = ChunkStore.magic then _ else _)
  by_cases hm : found = ChunkStore.magic
  · rw [if_pos hm, if_pos hm]
    rfl
  · rw [if_neg hm, if_neg hm]
    rfl

/-- An opened buffer of chunks is the buffer it was opened from. -/
theorem buffer_of_openStore {b : Bytes} {s : ChunkStore} (h : ChunkStore.ofBytes b = .ok s) :
    s.buffer = b := by
  obtain ⟨found, -, h⟩ := except_bind_eq_ok.1 h
  by_cases hm : found = ChunkStore.magic
  · rw [if_pos hm] at h
    cases h
    rfl
  · rw [if_neg hm] at h
    cases h

/-- The offsets of the two maps of an index. -/
def mapOffsets (b : Bytes) : Run (UInt32 × UInt32) :=
  if b.length < Index.minLength then fail .invalidSize
  else do
    let d ← cursorAt b 0
    let (found, _) ← word32 d
    if found = Index.magic then
      let start ← sub b.length 8
      let d ← cursorAt b start
      let (labels, d) ← word32 d
      let (postings, _) ← word32 d
      pure (labels, postings)
    else fail (.invalidMagic Index.magic found)

theorem mapOffsets_eq (b : Bytes) : mapOffsets b = ends (Index.readEnds b) := by
  by_cases hmin : b.length < Index.minLength
  · rw [mapOffsets, Index.readEnds, if_pos hmin, if_pos hmin]
    rfl
  · obtain ⟨found, labels, postings, mid, hm, hb⟩ := Index.exists_words (Nat.le_of_not_lt hmin)
    have hlen : b.length = (ofWord32 found ++ mid).length + 8 := by
      rw [hb]
      simp only [List.length_append, length_ofWord32, List.length_nil]
      omega
    -- the last eight bytes are the two words, read by one cursor
    have htail : b.tailFrom (b.length - 8) =
        .ok (ofWord32 labels ++ (ofWord32 postings ++ [])) := by
      rw [hlen, Nat.add_sub_cancel, hb, ← List.append_assoc (ofWord32 found)]
      exact tailFrom_append rfl
    have hread : Index.readEnds b = if found = Index.magic then .ok (labels, postings)
        else .error (.invalidMagic Index.magic found) := by
      rw [hb]
      exact Index.readEnds_of_words hm
    have hstart : cursorAt b 0 = pure b := rfl
    rw [mapOffsets, if_neg hmin, hread, hstart, pure_then]
    have hword : word32 b =
        pure (found, mid ++ (ofWord32 labels ++ (ofWord32 postings ++ []))) := by
      rw [hb]
      exact word32_append found _
    rw [hword, pure_then]
    show (if found = Index.magic then _ else _ : Run (UInt32 × UInt32)) = _
    by_cases hf : found = Index.magic
    · rw [if_pos hf, if_pos hf, sub_of_le (by omega), pure_then, cursorAt, htail, ends_ok_bind,
        word32_append, pure_then]
      show (word32 (ofWord32 postings ++ []) >>= _) = _
      rw [word32_append]
      rfl
    · rw [if_neg hf, if_neg hf]
      rfl

/-- Opens the buffer of an index. -/
def openIndex (options : ReaderOptions) (store : ChunkStore) (b : Bytes) : Run Index := do
  let (labelsOffset, postingsOffset) ← mapOffsets b
  let labels ← readMap options b labelsOffset
  let postings ← readMap options b postingsOffset
  pure ⟨b, store, labels, postings, options⟩

theorem openIndex_eq {b : Bytes} (hb : b.length < 2 ^ 64) (options : ReaderOptions)
    (store : ChunkStore) :
    openIndex options store b = ends (Index.ofBytes options store b).result := by
  rw [Index.result_ofBytes]
  refine bind_ends (mapOffsets_eq b) ?_
  rintro ⟨labelsOffset, postingsOffset⟩ _
  refine bind_ends (readMap_eq hb options labelsOffset) ?_
  intro labels _
  refine bind_ends (readMap_eq hb options postingsOffset) ?_
  intro postings _
  rfl

/-! ## Look-ups -/

/-- The figures that the block keeps of itself. -/
def stats (i : Index) : Run BlockStats := do
  let s ← readVerified i.options i.buffer BlockStats.offset
  let payload ← ends s.standardPayload
  if payload.length = BlockStats.payloadLength then
    let (minTime, d) ← word64 payload
    let (maxTime, d) ← word64 d
    let (seriesCount, d) ← word32 d
    let (chunkCount, d) ← word32 d
    let (sampleCount, _) ← word64 d
    pure ⟨minTime.toInt64, maxTime.toInt64, seriesCount, chunkCount, sampleCount⟩
  else fail .invalidSize

theorem stats_eq {i : Index} (hb : i.buffer.length < 2 ^ 64) :
    stats i = ends i.stats.result := by
  rw [Index.stats, Recorded.result_countCorruption, Recorded.result_bind]
  refine bind_ends (readVerified_eq hb i.options BlockStats.offset) ?_
  intro s _
  refine bind_ends rfl ?_
  intro payload _
  show (if payload.length = BlockStats.payloadLength then _ else _ : Run BlockStats) =
    ends (if payload.length = BlockStats.payloadLength then _ else _)
  by_cases hlen : payload.length = BlockStats.payloadLength
  · rw [if_pos hlen, if_pos hlen]
    refine bind_eval (word64_eq payload) ?_
    intro minTime d₁ _
    refine bind_eval (word64_eq d₁) ?_
    intro maxTime d₂ _
    refine bind_eval (word32_eq d₂) ?_
    intro seriesCount d₃ _
    refine bind_eval (word32_eq d₃) ?_
    intro chunkCount d₄ _
    refine bind_eval (word64_eq d₄) ?_
    intro sampleCount d₅ _
    rfl
  · rw [if_neg hlen, if_neg hlen]
    rfl

/-- The arity and the tuples in the payload of a label index. -/
def tuplesIn (symbols payload : Bytes) : Run StoredTuples := do
  let (arity, d) ← uvarint payload
  let consumed ← sub payload.length d.length
  let stored ← slice payload consumed payload.length
  ends (StoredTuples.ofPayload arity stored symbols)

/-- Tuples whose symbols lie in the buffer that their payload was cut out of. -/
def CutFrom (b : Bytes) (t : StoredTuples) : Prop :=
  t.symbols = b ∧ t.payload.length ≤ b.length

/-- Reading the tuples of a payload ends in tuples that are cut from the buffer of the payload, or
in the error of the operation. -/
theorem tuplesIn_ends {b payload : Bytes} (hp : payload.length ≤ b.length) :
    ∃ r, tuplesIn b payload = ends r ∧ Index.tuplesOf b payload = r.map .stored ∧
      ∀ t, r = .ok t → CutFrom b t := by
  cases hs : Decoder.uvarint.step payload with
  | error e =>
      refine ⟨.error e, ?_, ?_, nofun⟩
      · rw [tuplesIn, uvarint_eq, hs]
        rfl
      · unfold Decoder.step at hs
        unfold Index.tuplesOf
        rcases hr : Decoder.uvarint.run payload with ⟨r, rest⟩
        rw [hr] at hs
        cases r with
        | ok v => cases hs
        | error e' =>
            cases hs
            rfl
  | ok p =>
      obtain ⟨arity, d⟩ := p
      have hrun := Decoder.step_eq_ok.1 hs
      obtain ⟨used, hv, hd⟩ := Decoder.run_uvarint_eq_ok.1 hrun
      have hu := (Varint.decode_used hv).2.1
      have hlen : d.length = payload.length - used := by rw [hd, List.length_drop]
      -- the slice starts where the arity ends
      refine ⟨StoredTuples.ofPayload arity d b, ?_, ?_, ?_⟩
      · have hslice : slice payload used (used + d.length) =
            pure ((payload.drop used).take d.length) := slice_of_le payload (by omega)
        have hconsumed : payload.length - d.length = used := by omega
        have hend : used + d.length = payload.length := by omega
        rw [← hd, List.take_length, hend] at hslice
        rw [tuplesIn, uvarint_eq, hs, ends_ok_bind]
        show (sub payload.length d.length >>= _) = _
        rw [sub_of_le (by omega), pure_then, hconsumed, hslice, pure_then]
      · unfold Index.tuplesOf
        rw [hrun]
      · intro t h
        obtain ⟨-, -, hpay, hsym⟩ := StoredTuples.ofPayload_eq_ok_iff.1 h
        exact ⟨hsym, by rw [hpay]; omega⟩

/-- The stored tuples of values for a list of label names. -/
def labelValues (i : Index) (names : List String) : Run StoredTuples :=
  match i.labels.get? (Index.keyOf names) with
  | none => fail (.notFound "label index doesn't exist")
  | some offset => do
    let s ← (readVerified i.options i.buffer offset).mapError (.inSection offset)
    let payload ← ends s.standardPayload
    tuplesIn i.buffer payload

/-- **Looking label values up does not trap**, and what it gives is cut from the buffer. -/
theorem labelValues_ends {i : Index} (hb : i.buffer.length < 2 ^ 64) (names : List String) :
    ∃ r, labelValues i names = ends r ∧ (i.labelValues names).result = r.map .stored ∧
      ∀ t, r = .ok t → CutFrom i.buffer t := by
  rw [Index.labelValues, Recorded.result_countCorruption]
  unfold labelValues
  cases i.labels.get? (Index.keyOf names) with
  | none =>
      exact ⟨.error (.notFound "label index doesn't exist"), rfl, rfl, nofun⟩
  | some offset =>
      show ∃ r, ((readVerified i.options i.buffer offset).mapError _ >>= _) = _ ∧
        (((Index.readSection i.options i.buffer offset).mapError _) >>= _).result = _ ∧ _
      rw [readVerified_eq hb, mapError_ends, Recorded.result_bind, Recorded.result_mapError]
      cases hr : (Index.readSection i.options i.buffer offset).result with
      | error e =>
          exact ⟨.error (.inSection offset e), rfl, rfl, nofun⟩
      | ok s =>
          -- the payload is part of the buffer, and so are the tuples in it
          have hlen := Section.length_payload_of_read (Index.read_of_readSection hr)
          show ∃ r, (ends s.standardPayload >>= _) = _ ∧ (s.standardPayload >>= _) = _ ∧ _
          unfold Section.standardPayload
          by_cases hflag : s.flag = Section.standardFlag
          · rw [if_pos hflag]
            exact tuplesIn_ends (by omega)
          · rw [if_neg hflag]
            exact ⟨.error (.invalidFlag s.flag), rfl, rfl, nofun⟩

/-- The words that a payload is made of, four bytes each. -/
def words : Bytes → Run (List UInt32)
  | a :: b :: c :: d :: rest => do
    let v ← word32Of [a, b, c, d]
    let more ← words rest
    pure (v :: more)
  | _ => pure []

theorem words_eq (payload : Bytes) : words payload = pure (Index.wordsOf payload) := by
  induction payload using words.induct with
  | case1 a b c d rest ih =>
      rw [words, word32Of_eq rfl, pure_then, ih, pure_then, Index.wordsOf]
  | case2 payload h =>
      rw [words.eq_2 payload h, Index.wordsOf.eq_2 payload h]

/-- The references of the series that have a label. -/
def postings (i : Index) (name value : String) : Run Postings :=
  match i.postingsMap.get? (Index.keyOf [name, value]) with
  | none => fail (.notFound s!"postings for {name}={value}")
  | some offset => do
    let s ← readVerified i.options i.buffer offset
    let payload ← ends s.standardPayload
    if payload.length % 4 = 0 then
      let n ← div payload.length 4
      let _ ← reserve i.buffer.length n
      let refs ← words payload
      pure (Postings.ofList refs)
    else fail .invalidSize

theorem postings_eq {i : Index} (hb : i.buffer.length < 2 ^ 64) (name value : String) :
    postings i name value = ends (i.postings name value).result := by
  rw [Index.postings, Recorded.result_countCorruption]
  unfold postings
  cases i.postingsMap.get? (Index.keyOf [name, value]) with
  | none => rfl
  | some offset =>
      simp only [Recorded.result_bind, Recorded.result_ofExcept]
      show _ = ends ((Index.readSection i.options i.buffer offset).result >>= _)
      refine bind_ends (readVerified_eq hb i.options offset) ?_
      intro s hs
      have hlen := Section.length_payload_of_read (Index.read_of_readSection hs)
      unfold Section.standardPayload
      by_cases hflag : s.flag = Section.standardFlag
      · rw [if_pos hflag, ends_ok_bind]
        show _ = ends (Index.refsOf s.payload >>= _)
        rw [Index.refsOf]
        by_cases hfour : s.payload.length % 4 = 0
        -- a reference takes four bytes, so the room for all of them is within the buffer
        · have hdiv := Nat.div_le_self s.payload.length 4
          rw [if_pos hfour, if_pos hfour, div_of_ne (by decide), pure_then,
            reserve_of_le (by omega), pure_then, words_eq]
          rfl
        · rw [if_neg hfour, if_neg hfour]
          rfl
      · rw [if_neg hflag]
        rfl

/-- The series at a reference, with its chunks that overlap a range. -/
def series (i : Index) (ref : SeriesRef) (mint maxt : Timestamp) : Run SeriesLookup := do
  let (labels, kept, _) ← record i.buffer ref mint maxt
  pure (if kept.isEmpty then .notInRange else .found ⟨labels, kept⟩)

theorem series_eq {i : Index} (hb : i.buffer.length < 2 ^ 64) (ref : SeriesRef)
    (mint maxt : Timestamp) : series i ref mint maxt = ends (i.series ref mint maxt).result := by
  unfold series Index.series
  rw [record_eq hb]
  cases i.buffer.tailFrom ref.toNat >>= (Series.record i.buffer mint maxt).eval with
  | error e => rfl
  | ok p => rfl

/-- The series that have a label and a chunk in a range. All of them are decoded before the first
failure in their order is looked for. -/
def select (i : Index) (name value : String) (mint maxt : Timestamp) : Run (List Series) := do
  let p ← postings i name value
  let outcomes ← attemptAll (fun ref => series i ref mint maxt) p.toList
  let found ← ends (outcomes.mapM id)
  pure (found.filterMap SeriesLookup.toOption)

theorem select_eq {i : Index} (hb : i.buffer.length < 2 ^ 64) (name value : String)
    (mint maxt : Timestamp) :
    select i name value mint maxt = ends (i.select name value mint maxt).result := by
  rw [Index.select, Recorded.result_bind]
  refine bind_ends (postings_eq hb name value) ?_
  intro p _
  rw [attemptAll_eq (fun ref _ => series_eq hb ref mint maxt), pure_then, Recorded.result_bind,
    Index.result_seriesAll, List.mapM_map]
  exact bind_ends rfl fun found _ => rfl

/-! ## Requests -/

/-- Answers a request. -/
def answer (i : Index) : Request → Run Reply
  | .stats => do pure (.stats (← stats i))
  | .labelIndices => do pure (.labelIndices (← ends (Index.listing i.labels.keys)))
  | .labelValues names => do
    let t ← labelValues i names
    pure (.labelValues t.arity (← tupleCount t))
  | .valueAt names k => do
    let t ← labelValues i names
    pure (.valueAt (← tupleAt t k))
  | .values names => do
    let t ← labelValues i names
    pure (.values (← tuples t))
  | .postings name value => do pure (.postings (← postings i name value))
  | .series ref mint maxt => do pure (.series (← series i ref mint maxt))
  | .select name value mint maxt => do pure (.select (← select i name value mint maxt))
  | .chunk ref => do pure (.chunk (← chunk i.chunks.buffer ref))
  | .symbol offset => do pure (.symbol (← lookup i.buffer offset))
  | .symbolText offset => do pure (.symbolText (← text i.buffer offset))

/-- What follows a look-up of label values does not trap if it does not on tuples cut from the
buffer. -/
theorem bind_labelValues {α : Type} {i : Index} (hb : i.buffer.length < 2 ^ 64)
    {names : List String} {f : StoredTuples → Run α} {g : Tuples → Recorded α}
    (h : ∀ t, CutFrom i.buffer t → f t = ends (g (.stored t)).result) :
    (labelValues i names >>= f) = ends (i.labelValues names >>= g).result := by
  obtain ⟨r, hrun, hresult, hcut⟩ := labelValues_ends hb names
  rw [Recorded.result_bind, hrun, hresult]
  cases r with
  | error e => rfl
  | ok t => exact h t (hcut t rfl)

/-- An operation that does not trap is answered without a trap. -/
theorem bind_reply {α : Type} {m : Run α} {r : Recorded α} (h : m = ends r.result)
    (reply : α → Reply) :
    (m >>= fun a => pure (reply a)) = ends (r >>= fun a => pure (reply a)).result := by
  rw [Recorded.result_bind]
  exact bind_ends h fun a _ => rfl

/-- **Answering a request does not trap** on an opened index whose buffers the machine can
address. -/
theorem answer_eq {i : Index} (hb : i.buffer.length < 2 ^ 64)
    (hc : i.chunks.buffer.length < 2 ^ 64) (request : Request) :
    answer i request = ends (i.answer request).result := by
  cases request with
  | stats => exact bind_reply (stats_eq hb) Reply.stats
  | labelIndices => exact bind_reply (r := i.labelIndices) rfl Reply.labelIndices
  | labelValues names =>
      refine bind_labelValues hb ?_
      intro t _
      rw [tupleCount_eq]
      rfl
  | valueAt names k =>
      refine bind_labelValues hb ?_
      rintro t ⟨hs, hp⟩
      rw [← hs] at hp
      exact bind_reply (r := Recorded.ofExcept (t.at? k)) (tupleAt_eq (by rw [hs]; exact hb) hp k)
        Reply.valueAt
  | values names =>
      refine bind_labelValues hb ?_
      rintro t ⟨hs, hp⟩
      rw [← hs] at hp
      rw [tuples_eq (by rw [hs]; exact hb) hp]
      rfl
  | postings name value => exact bind_reply (postings_eq hb name value) Reply.postings
  | series ref mint maxt => exact bind_reply (series_eq hb ref mint maxt) Reply.series
  | select name value mint maxt => exact bind_reply (select_eq hb name value mint maxt) Reply.select
  | chunk ref => exact bind_reply (chunk_eq hc ref) Reply.chunk
  | symbol offset =>
      exact bind_reply (r := Recorded.ofExcept (Symbol.lookup i.buffer offset))
        (lookup_eq hb offset) Reply.symbol
  | symbolText offset =>
      exact bind_reply (r := Recorded.ofExcept (Symbol.text i.buffer offset)) (text_eq hb offset)
        Reply.symbolText

/-! ## Sessions -/

/-- A buffer that a machine of 64 bits can hold. -/
structure Buffer where
  bytes : Bytes
  fits : bytes.length < 2 ^ 64

/-- Opens both buffers of a block and answers a request. -/
def session (options : ReaderOptions) (index chunks : Bytes) (request : Request) : Run Reply := do
  let store ← openStore chunks
  let i ← openIndex options store index
  answer i request

/-- **A session never traps**: on all buffers that the machine can hold, under all options, every
request with any arguments ends in the reply or the error of its operation. -/
theorem session_never_traps (options : ReaderOptions) (index chunks : Buffer) (request : Request) :
    session options index.bytes chunks.bytes request =
      ends (Index.session options index.bytes chunks.bytes request) := by
  refine bind_ends (openStore_eq chunks.bytes) ?_
  intro store hstore
  refine bind_ends (openIndex_eq index.fits options store) ?_
  intro i hi
  -- the opened index keeps both buffers, so the bounds carry over
  obtain ⟨hbuffer, hchunks, -⟩ := Index.of_result_ofBytes hi
  have hb : i.buffer.length < 2 ^ 64 := by
    rw [hbuffer]
    exact index.fits
  have hc : i.chunks.buffer.length < 2 ^ 64 := by
    rw [hchunks, buffer_of_openStore hstore]
    exact chunks.fits
  exact answer_eq hb hc request

end SeriesBlock.Machine
