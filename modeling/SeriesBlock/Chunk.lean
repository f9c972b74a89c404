import SeriesBlock.Decoder
import SeriesBlock.Document
import SeriesBlock.Journal

/-!
# Chunks

The samples of a series lie in chunks, in a buffer of their own that starts with a magic word. A chunk is framed as
the length of its payload, an encoding tag, and the payload, which is handed through as it is. An index knows a
chunk by its reference, the offset of its frame, and the times it spans (`ChunkMeta`).
-/

set_option autoImplicit false

namespace SeriesBlock

/-- Where a chunk starts in its buffer. -/
abbrev ChunkRef := UInt32

/-- Milliseconds since the epoch. -/
abbrev Timestamp := Int64

/-! ## What an index knows of a chunk -/

/-- Where a chunk is and the times of its first and last sample. -/
structure ChunkMeta where
  ref : ChunkRef
  minTime : Timestamp
  maxTime : Timestamp
deriving DecidableEq, Repr

namespace ChunkMeta

/-- Whether a chunk has times in common with the closed range from `mint` to `maxt`. -/
def overlaps (m : ChunkMeta) (mint maxt : Timestamp) : Bool :=
  m.minTime ≤ maxt && mint ≤ m.maxTime

/-- A chunk's entry from a document. -/
def ofDocument? (d : Document) : Option ChunkMeta := do
  match ← d.fields? ["chunk_ref", "min_time", "max_time"] with
  | [some ref, some minTime, some maxTime] =>
    some ⟨← ref.word32?, ← minTime.signed64?, ← maxTime.signed64?⟩
  | _ => none

/-- A chunk's entry as a document. -/
def toDocument (m : ChunkMeta) : Document :=
  .object [("chunk_ref", .integer m.ref.toNat), ("min_time", .integer m.minTime.toInt),
    ("max_time", .integer m.maxTime.toInt)]

end ChunkMeta

/-! ## Encodings -/

/-- How the samples of a chunk are encoded. -/
inductive Encoding where
  | none
  | xor
deriving DecidableEq, Repr

namespace Encoding

/-- The tag of an encoding. -/
def tag : Encoding → UInt8
  | none => 0
  | xor => 1

/-- The name of an encoding. -/
def name : Encoding → String
  | none => "None"
  | xor => "Xor"

/-- The encoding with a tag. -/
def ofTag (tag : UInt8) : Except CodecFault Encoding :=
  if tag = 0 then .ok none
  else if tag = 1 then .ok xor
  else .error (.unknownEncoding tag)

end Encoding

/-- A chunk's encoding and its samples as stored. -/
structure Chunk where
  encoding : Encoding
  payload : Bytes
deriving DecidableEq, Repr

namespace Chunk

/-- The chunk with a given tag and payload. -/
def ofTagged (tag : UInt8) (payload : Bytes) : Except BlockError Chunk :=
  match Encoding.ofTag tag with
  | .ok encoding => .ok ⟨encoding, payload⟩
  | .error fault => .error (.codec fault)

/-- Takes a chunk's frame apart into its tag and payload. -/
def frame : Decoder (UInt8 × Bytes) := do
  let length ← Decoder.uvarint
  let tag ← Decoder.byte
  let payload ← Decoder.take length.toNat
  pure (tag, payload)

/-- The frame of a payload. -/
def write (tag : UInt8) (payload : Bytes) : Bytes :=
  Varint.encodeNat payload.length ++ tag :: payload

end Chunk

/-! ## Buffers of chunks -/

/-- A buffer of chunks whose magic word has been checked. -/
structure ChunkStore where
  buffer : Bytes
deriving DecidableEq, Repr

namespace ChunkStore

/-- The word at the start of every buffer of chunks. -/
def magic : UInt32 := 0x85bd40dd

/-- Opens a buffer of chunks. -/
def ofBytes (b : Bytes) : Except BlockError ChunkStore := do
  let found ← b.word32At 0
  if found = magic then pure ⟨b⟩ else throw (.invalidMagic magic found)

/-- The size of the buffer in bytes. -/
def size (s : ChunkStore) : Nat := s.buffer.length

/-- The tag and payload framed at a reference. -/
def framed (s : ChunkStore) (ref : ChunkRef) : Except BlockError (UInt8 × Bytes) := do
  Chunk.frame.eval (← s.buffer.tailFrom ref.toNat)

/-- The chunk at a reference. A frame that was read counts as a read even if its tag is then refused. -/
def chunk (s : ChunkStore) (ref : ChunkRef) : Recorded Chunk :=
  match s.framed ref with
  | .ok (tag, payload) => ⟨Chunk.ofTagged tag payload, [.increment .chunkReads 1]⟩
  | .error e => ⟨.error e, [.increment .decodeErrors 1]⟩

/-- The chunk is that of the frame, unless its tag is refused. -/
theorem result_chunk (s : ChunkStore) (ref : ChunkRef) :
    (s.chunk ref).result = s.framed ref >>= fun p => Chunk.ofTagged p.1 p.2 := by
  unfold chunk
  cases s.framed ref with
  | error e => rfl
  | ok p => rfl

end ChunkStore

end SeriesBlock
