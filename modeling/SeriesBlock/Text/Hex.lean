/-!
# Hexadecimal text

Error messages and reports show flags and words in lowercase hexadecimal, with a fixed least width.
-/

set_option autoImplicit false

namespace SeriesBlock.Text

/-- The lowercase hexadecimal digits of a number, at least one. -/
def hexDigits (n : Nat) : String :=
  String.ofList (Nat.toDigits 16 n)

/-- `0x` and the digits of a number, filled up with zeros to `width` digits. -/
def hex (width n : Nat) : String :=
  let digits := Nat.toDigits 16 n
  "0x" ++ String.ofList (List.replicate (width - digits.length) '0' ++ digits)

end SeriesBlock.Text
