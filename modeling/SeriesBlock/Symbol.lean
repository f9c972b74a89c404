import SeriesBlock.Decoder
import SeriesBlock.Text.Utf8

/-!
# Symbols

Strings are stored once in the index buffer, each as its length and its bytes, and named everywhere else by their
offset. A look-up that leads outside the buffer fails with `invalidLength`, whatever part of the symbol is
missing.
-/

set_option autoImplicit false

namespace SeriesBlock.Symbol

/-- A length and that many bytes. -/
def stored : Decoder Bytes := do
  let length ← Decoder.uvarint
  Decoder.take length.toNat

/-- The bytes of the symbol at an offset. -/
def lookup (b : Bytes) (offset : UInt32) : Except BlockError Bytes :=
  match b.tailFrom offset.toNat >>= stored.eval with
  | .ok w => .ok w
  | .error _ => .error .invalidLength

/-- The symbol at an offset as text. -/
def text (b : Bytes) (offset : UInt32) : Except BlockError String := do
  let w ← lookup b offset
  match Utf8.decode w with
  | .ok s => .ok s
  | .error fault => .error (.invalidUtf8 fault.message)

/-- A symbol as it is written. -/
def write (w : Bytes) : Bytes :=
  Varint.encodeNat w.length ++ w

end SeriesBlock.Symbol
