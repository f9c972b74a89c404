import SeriesBlock.Chunk

/-!
# Statistics of a block

A block keeps a few figures of itself in a section of fixed size near the start of its index.
-/

set_option autoImplicit false

namespace SeriesBlock

/-- The times that a block spans and how much it holds. -/
structure BlockStats where
  minTime : Timestamp
  maxTime : Timestamp
  seriesCount : UInt32
  chunkCount : UInt32
  sampleCount : UInt64
deriving DecidableEq, Repr

namespace BlockStats

/-- Where the section with the figures starts. -/
def offset : UInt32 := 8

/-- The length of that section's payload. The figures take half of it, the rest is reserved. -/
def payloadLength : Nat := 64

/-- The figures at the front of a payload. -/
def fields : Decoder BlockStats := do
  let minTime ← Decoder.word64
  let maxTime ← Decoder.word64
  let seriesCount ← Decoder.word32
  let chunkCount ← Decoder.word32
  let sampleCount ← Decoder.word64
  pure ⟨minTime.toInt64, maxTime.toInt64, seriesCount, chunkCount, sampleCount⟩

/-- The figures in a payload of the right length. -/
def ofPayload (payload : Bytes) : Except BlockError BlockStats :=
  if payload.length = payloadLength then fields.eval payload else .error .invalidSize

/-- The payload that holds the figures. -/
def toPayload (s : BlockStats) : Bytes :=
  Bytes.ofWord64 s.minTime.toUInt64 ++ Bytes.ofWord64 s.maxTime.toUInt64 ++
    Bytes.ofWord32 s.seriesCount ++ Bytes.ofWord32 s.chunkCount ++ Bytes.ofWord64 s.sampleCount ++
    List.replicate 32 0

/-- The figures from a document. -/
def ofDocument? (d : Document) : Option BlockStats := do
  match ← d.fields? ["min_time", "max_time", "series_count", "chunk_count", "sample_count"] with
  | [some minTime, some maxTime, some seriesCount, some chunkCount, some sampleCount] =>
    some ⟨← minTime.signed64?, ← maxTime.signed64?, ← seriesCount.word32?, ← chunkCount.word32?,
      ← sampleCount.word64?⟩
  | _ => none

/-- The figures as a document. -/
def toDocument (s : BlockStats) : Document :=
  .object [("min_time", .integer s.minTime.toInt), ("max_time", .integer s.maxTime.toInt),
    ("series_count", .integer s.seriesCount.toNat), ("chunk_count", .integer s.chunkCount.toNat),
    ("sample_count", .integer s.sampleCount.toNat)]

end BlockStats

end SeriesBlock
