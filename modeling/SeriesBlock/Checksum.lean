import SeriesBlock.Bytes

/-!
# Checksums

The cyclic redundancy check of 32 bits with the polynomial of IEEE 802.3, least significant bit first: a register
of 32 bits takes the bytes in one at a time, and its complement is the sum.

The checksum of a section covers its flag, the length of its payload as a 32-bit word, and the payload.
-/

set_option autoImplicit false

namespace SeriesBlock.Checksum

/-- The polynomial, least significant bit first. -/
def polynomial : BitVec 32 := 0xedb88320

/-- The register after one bit has been shifted out. -/
def shift (r : BitVec 32) : BitVec 32 :=
  if r.getLsbD 0 then (r >>> 1) ^^^ polynomial else r >>> 1

/-- The register after `n` bits have been shifted out. -/
def shifts : Nat → BitVec 32 → BitVec 32
  | 0, r => r
  | n + 1, r => shifts n (shift r)

/-- The register after one more byte. -/
def absorb (r : BitVec 32) (b : UInt8) : BitVec 32 :=
  shifts 8 (r ^^^ b.toBitVec.setWidth 32)

/-- The cyclic redundancy check of a byte string. -/
def crc32 (b : Bytes) : UInt32 :=
  UInt32.ofBitVec (~~~(b.foldl absorb (BitVec.allOnes 32)))

/-- The checksum of a section with the given flag and payload. -/
def ofSection (flag : UInt8) (payload : Bytes) : UInt32 :=
  crc32 (flag :: (Bytes.ofWord32 (UInt32.ofNat payload.length) ++ payload))

end SeriesBlock.Checksum
