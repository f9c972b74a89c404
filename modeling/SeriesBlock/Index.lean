import SeriesBlock.OffsetMap
import SeriesBlock.Options
import SeriesBlock.Postings
import SeriesBlock.Series
import SeriesBlock.Stats
import SeriesBlock.Tuples

/-!
# The index of a block

An index buffer starts with a magic word and ends with the offsets of two maps, which are read when the index is
opened: from lists of label names to the sections that hold their values, and from a label to the section that
lists its series. Everything else is decoded on demand from the buffer.

Every operation says in its journal what happened: each failure on malformed bytes counts once, whichever layer
found it.
-/

set_option autoImplicit false

namespace SeriesBlock

/-- An opened index: its buffer, the chunks that it refers to, and the maps read from it. -/
structure Index where
  buffer : Bytes
  chunks : ChunkStore
  labels : OffsetMap
  postingsMap : OffsetMap
  options : ReaderOptions

namespace Index

/-- The word at the start of every index. -/
def magic : UInt32 := 0xbaaad700

/-- No index is shorter than this: the magic word, the offsets of the two maps, and some slack. -/
def minLength : Nat := 16

/-! ## Opening -/

/-- The section at an offset, with its checksum verified if the options ask for it. -/
def readSection (options : ReaderOptions) (b : Bytes) (offset : UInt32) : Recorded Section :=
  match Section.read b offset with
  | .error e => ⟨.error e, []⟩
  | .ok s =>
    if options.verifyChecksums then
      match s.verify with
      | .ok () => ⟨.ok s, []⟩
      | .error (.checksumMismatch offset expected actual) =>
        ⟨.error (.checksumMismatch offset expected actual), [.event (.checksumMismatch offset expected actual)]⟩
      | .error e => ⟨.error e, []⟩
    else ⟨.ok s, []⟩

/-- The map in the section at an offset. -/
def readMap (options : ReaderOptions) (b : Bytes) (offset : UInt32) : Recorded OffsetMap := do
  let s ← readSection options b offset
  Recorded.ofExcept (OffsetMap.ofSection s)

/-- Checks the size and the magic word of an index and finds the offsets of its two maps. -/
def readEnds (b : Bytes) : Except BlockError (UInt32 × UInt32) :=
  if b.length < minLength then .error .invalidSize
  else do
    let found ← b.word32At 0
    if found = magic then
      let labels ← b.word32At (b.length - 8)
      let postings ← b.word32At (b.length - 4)
      pure (labels, postings)
    else throw (.invalidMagic magic found)

/-- Reads what an opened index holds. -/
def load (options : ReaderOptions) (chunks : ChunkStore) (b : Bytes) : Recorded Index := do
  let (labelsOffset, postingsOffset) ← Recorded.ofExcept (readEnds b)
  let labels ← readMap options b labelsOffset
  let postings ← readMap options b postingsOffset
  pure ⟨b, chunks, labels, postings, options⟩

/-- Opens an index over its chunks and reports how that went. -/
def ofBytes (options : ReaderOptions) (chunks : ChunkStore) (b : Bytes) : Recorded Index := do
  let i ← (load options chunks b).onError fun e =>
    [.increment .decodeErrors 1, .event (.indexOpenFailed e.message)]
  Recorded.note [.event (.indexOpened i.labels.size i.postingsMap.size)]
  pure i

/-! ## Look-ups -/

/-- The size of the index in bytes. -/
def size (i : Index) : Nat := i.buffer.length

/-- The section at an offset of the index. -/
def sectionAt (i : Index) (offset : UInt32) : Recorded Section :=
  readSection i.options i.buffer offset

/-- The figures that the block keeps of itself. -/
def stats (i : Index) : Recorded BlockStats :=
  Recorded.countCorruption do
    let s ← i.sectionAt BlockStats.offset
    Recorded.ofExcept (s.standardPayload >>= BlockStats.ofPayload)

/-- The key of a list of names. -/
def keyOf (names : List String) : Bytes :=
  Key.join (names.map Utf8.encode)

/-- The arity and the tuples in the payload of a label index. -/
def tuplesOf (symbols payload : Bytes) : Except BlockError Tuples :=
  match Decoder.uvarint.run payload with
  | (.ok arity, rest) => (StoredTuples.ofPayload arity rest symbols).map .stored
  | (.error e, _) => .error e

/-- The values that series have for a list of label names, as tuples in ascending order. A section that cannot be
read is named in the error. -/
def labelValues (i : Index) (names : List String) : Recorded Tuples :=
  Recorded.countCorruption
    (match i.labels.get? (keyOf names) with
    | none => ⟨.error (.notFound "label index doesn't exist"), []⟩
    | some offset => do
      let s ← (i.sectionAt offset).mapError (.inSection offset)
      Recorded.ofExcept (s.standardPayload >>= tuplesOf i.buffer))

/-- The names in a key. -/
def namesOfKey (key : Bytes) : Except BlockError (List String) :=
  (Key.split key).mapM fun part =>
    match Utf8.decode part with
    | .ok s => .ok s
    | .error fault => .error (.invalidUtf8 fault.message)

/-- The names in keys, in ascending order. Of several keys that are not text the first fails. -/
def listing (keys : List Bytes) : Except BlockError (List (List String)) :=
  (keys.mapM namesOfKey).map fun names => names.mergeSort Text.leFields

/-- The lists of label names that have a label index, in ascending order. -/
def labelIndices (i : Index) : Recorded (List (List String)) :=
  Recorded.ofExcept (listing i.labels.keys)

/-- The words that a payload is made of. -/
def wordsOf : Bytes → List UInt32
  | a :: b :: c :: d :: rest => UInt32.ofNat (Bytes.toNat [a, b, c, d]) :: wordsOf rest
  | _ => []

/-- The references in the payload of a postings section. -/
def refsOf (payload : Bytes) : Except BlockError (List SeriesRef) :=
  if payload.length % 4 = 0 then .ok (wordsOf payload) else .error .invalidSize

/-- The references of the series that have a label, in stored order. -/
def postings (i : Index) (name value : String) : Recorded Postings :=
  Recorded.countCorruption
    (match i.postingsMap.get? (keyOf [name, value]) with
    | none => ⟨.error (.notFound s!"postings for {name}={value}"), []⟩
    | some offset => do
      let s ← i.sectionAt offset
      let refs ← Recorded.ofExcept (s.standardPayload >>= refsOf)
      Recorded.note [.increment .postingsLookups 1]
      pure (Postings.ofList refs))

/-- What is counted for a record that was read. -/
def recordEntries (kept skipped : Nat) : Journal :=
  .increment (if kept = 0 then .seriesNotInRange else .seriesDecoded) 1 ::
    if skipped = 0 then [] else [.increment .chunksSkipped skipped]

/-- The series whose record is at a reference, with its chunks that overlap the range from `mint` to `maxt`. -/
def series (i : Index) (ref : SeriesRef) (mint maxt : Timestamp) : Recorded SeriesLookup :=
  match i.buffer.tailFrom ref.toNat >>= (Series.record i.buffer mint maxt).eval with
  | .ok (labels, chunks, skipped) =>
    ⟨.ok (if chunks.isEmpty then .notInRange else .found ⟨labels, chunks⟩),
      recordEntries chunks.length skipped⟩
  | .error e =>
    ⟨.error e, [.increment .decodeErrors 1, .event (.seriesDecodeFailed ref e.message)]⟩

/-- The look-ups of a list of references, in order, up to the first that fails. -/
def seriesAll (i : Index) (mint maxt : Timestamp) : List SeriesRef → Recorded (List SeriesLookup)
  | [] => pure []
  | ref :: more => do
    let s ← i.series ref mint maxt
    let rest ← i.seriesAll mint maxt more
    pure (s :: rest)

/-- The series that have a label and a chunk in the range from `mint` to `maxt`, in the order of the postings. -/
def select (i : Index) (name value : String) (mint maxt : Timestamp) : Recorded (List Series) := do
  let p ← i.postings name value
  let found ← i.seriesAll mint maxt p.toList
  pure (found.filterMap SeriesLookup.toOption)

/-- The chunk at a reference. -/
def chunk (i : Index) (ref : ChunkRef) : Recorded Chunk :=
  i.chunks.chunk ref

end Index

end SeriesBlock
