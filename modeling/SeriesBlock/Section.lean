import SeriesBlock.Checksum
import SeriesBlock.Decoder

/-!
# Sections

A section is a framed region of the index buffer: a flag byte, the length of the payload as a 32-bit word, the
payload, and its checksum as a 32-bit word. `read` takes the frame at an offset apart without judging it; the
flag is checked when the payload is asked for (`standardPayload`) and the checksum only on demand (`verify`).
`write` lays a frame out.
-/

set_option autoImplicit false

namespace SeriesBlock

/-- A framed region of the index buffer, as it is stored. -/
structure Section where
  /-- Where the frame starts. -/
  offset : UInt32
  flag : UInt8
  payload : Bytes
  /-- The trailer as stored. -/
  checksum : UInt32
deriving DecidableEq, Repr

namespace Section

/-- The one encoding flag in use. -/
def standardFlag : UInt8 := 1

/-- Takes apart the frame at the front of a byte string that starts at `offset`. -/
def frame (offset : UInt32) : Decoder Section := do
  let flag ← Decoder.byte
  let length ← Decoder.word32
  let payload ← Decoder.take length.toNat
  let checksum ← Decoder.word32
  pure { offset, flag, payload, checksum }

/-- The section at an offset of a buffer. -/
def read (b : Bytes) (offset : UInt32) : Except BlockError Section := do
  (frame offset).eval (← b.tailFrom offset.toNat)

/-- Compares the stored trailer with the checksum of the contents. -/
def verify (s : Section) : Except BlockError Unit :=
  let actual := Checksum.ofSection s.flag s.payload
  if actual = s.checksum then .ok () else .error (.checksumMismatch s.offset s.checksum actual)

/-- The payload, if the section has the standard flag. -/
def standardPayload (s : Section) : Except BlockError Bytes :=
  if s.flag = standardFlag then .ok s.payload else .error (.invalidFlag s.flag)

/-- The frame of a payload. -/
def write (flag : UInt8) (payload : Bytes) : Bytes :=
  flag :: (Bytes.ofWord32 (UInt32.ofNat payload.length) ++ payload ++
    Bytes.ofWord32 (Checksum.ofSection flag payload))

end Section

end SeriesBlock
