import SeriesBlock.Chunk
import SeriesBlock.Label
import SeriesBlock.Symbol
import SeriesBlock.Text.Quoted

/-!
# Series

The record of a series lists its labels, as pairs of symbol offsets, and its chunks in order of time. A record is
read for a range of times: chunks that end before it are passed over, and the first chunk that starts after it
ends the reading, since no later one can overlap the range.
-/

set_option autoImplicit false

namespace SeriesBlock

/-- A series with those of its chunks that overlap the range it was read for. -/
structure Series where
  labels : List Label
  chunks : List ChunkMeta
deriving DecidableEq, Repr

/-- A record that could be read: the series, or that none of its chunks overlap the range. -/
inductive SeriesLookup where
  | found (s : Series)
  | notInRange
deriving DecidableEq, Repr

namespace SeriesLookup

/-- Whether a chunk overlaps the range. -/
def isFound : SeriesLookup → Bool
  | found _ => true
  | notInRange => false

/-- The series, if a chunk overlaps the range. -/
def toOption : SeriesLookup → Option Series
  | found s => some s
  | notInRange => none

end SeriesLookup

/-! ## Part by part -/

/-- A label, part by part. -/
def Label.debug (l : Label) : String :=
  s!"Label \x7b name: {Text.quoted l.name}, value: {Text.quoted l.value} \x7d"

/-- A chunk's entry, part by part. -/
def ChunkMeta.debug (m : ChunkMeta) : String :=
  s!"ChunkMeta \x7b chunk_ref: {m.ref}, min_time: {m.minTime.toInt}, max_time: {m.maxTime.toInt} \x7d"

/-- A series, part by part; what it is read from is left out. -/
def Series.debug (s : Series) : String :=
  let labels := ", ".intercalate (s.labels.map Label.debug)
  let chunks := ", ".intercalate (s.chunks.map ChunkMeta.debug)
  s!"Series \x7b labels: [{labels}], chunks: [{chunks}], .. \x7d"

/-- The outcome of a look-up, part by part. -/
def SeriesLookup.debug : SeriesLookup → String
  | .found s => s!"Found({s.debug})"
  | .notInRange => "NotInRange"

/-! ## Reading a record -/

namespace Series

/-- Reads `n` labels and looks their symbols up in the buffer. -/
def readLabels (symbols : Bytes) : Nat → Decoder (List Label)
  | 0 => pure []
  | n + 1 => do
    let nameOffset ← Decoder.uvarint32
    let valueOffset ← Decoder.uvarint32
    let name ← Decoder.ofExcept (Symbol.text symbols nameOffset)
    let value ← Decoder.ofExcept (Symbol.text symbols valueOffset)
    let more ← readLabels symbols n
    pure (⟨name, value⟩ :: more)

/-- Reads up to `n` chunk entries for a range: those kept, and how many of the `n` are left out. -/
def readChunks (mint maxt : Timestamp) : Nat → Decoder (List ChunkMeta × Nat)
  | 0 => pure ([], 0)
  | n + 1 => do
    let first ← Decoder.varint
    if maxt < first then pure ([], n + 1)
    else
      let last ← Decoder.varint
      let ref ← Decoder.uvarint32
      let (kept, skipped) ← readChunks mint maxt n
      if last < mint then pure (kept, skipped + 1) else pure (⟨ref, first, last⟩ :: kept, skipped)

/-- Reads a record: its labels, the chunks that overlap the range, and how many are left out. A record names each
label by two offsets, and each chunk by two times and a reference, so that a declared number of either bounds the
bytes to follow. -/
def record (symbols : Bytes) (mint maxt : Timestamp) : Decoder (List Label × List ChunkMeta × Nat) := do
  let offsets ← Decoder.count 1
  if offsets % 2 = 1 then Decoder.fail .invalidSize
  else
    let labels ← readLabels symbols (offsets / 2)
    let declared ← Decoder.count 3
    let (chunks, skipped) ← readChunks mint maxt declared
    pure (labels, chunks, skipped)

end Series

end SeriesBlock
