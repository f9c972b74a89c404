/-!
# Byte strings and big-endian words

A buffer is a list of bytes, so that "the bytes from a position on" and "what was written, followed by
anything" are list terms. This module holds the fixed-width words of the format: `bigEndian w n` writes the
low `w` bytes of `n`, most significant first, and `toNat` reads such a run back.
-/

set_option autoImplicit false

namespace SeriesBlock

/-- A byte string. -/
abbrev Bytes := List UInt8

namespace Bytes

/-- The number whose digits in base 256, most significant first, are the given bytes. -/
def toNat (b : Bytes) : Nat :=
  b.foldl (fun n x => 256 * n + x.toNat) 0

/-- The low `w` bytes of a number, most significant first. -/
def bigEndian : Nat → Nat → Bytes
  | 0, _ => []
  | w + 1, n => UInt8.ofNat (n >>> (8 * w)) :: bigEndian w n

/-- A 32-bit word in its four bytes. -/
def ofWord32 (v : UInt32) : Bytes :=
  bigEndian 4 v.toNat

/-- A 64-bit word in its eight bytes. -/
def ofWord64 (v : UInt64) : Bytes :=
  bigEndian 8 v.toNat

/-- A run of `w` bytes is `w` bytes long. -/
@[simp]
theorem length_bigEndian (w n : Nat) : (bigEndian w n).length = w := by
  induction w with
  | zero => rfl
  | succ w ih => simp [bigEndian, ih]

end Bytes

end SeriesBlock
