import SeriesBlock.Settings.Double

/-!
# Numbers in plain text

How numbers are written in arguments and in the environment: a sign and digits, nothing else for integers, and
for other numbers also a point, an exponent, or a name for what is not finite.
-/

set_option autoImplicit false

namespace SeriesBlock.Text

/-- The number of a run of digits. There has to be at least one. -/
def digits? (cs : List Char) : Option Nat :=
  if cs.isEmpty || !cs.all Char.isDigit then none
  else some (cs.foldl (fun n c => 10 * n + (c.toNat - '0'.toNat)) 0)

/-- Whether there is a minus sign, and the characters after a sign. -/
def signed : List Char → Bool × List Char
  | '+' :: rest => (false, rest)
  | '-' :: rest => (true, rest)
  | cs => (false, cs)

/-- An integer: an optional sign and digits. -/
def integer? (cs : List Char) : Option Int := do
  let (negative, rest) := signed cs
  let n ← digits? rest
  some (if negative then -(n : Int) else n)

/-- An integer that fits 64 bits with a sign. -/
def signed64? (s : String) : Option Int64 := do
  let n ← integer? s.toList
  if Int64.minValue.toInt ≤ n ∧ n ≤ Int64.maxValue.toInt then some (Int64.ofInt n) else none

/-- The digits of a number with a point: before it and after it, at least one in all. -/
def pointed? (cs : List Char) : Option (Nat × Nat) :=
  match cs.splitOn '.' with
  | [whole] => (digits? whole).map fun n => (n, 0)
  | [whole, places] => (digits? (whole ++ places)).map fun n => (n, places.length)
  | _ => none

/-- Any number: digits with an optional point and an optional exponent, or a name, in any case. -/
def decimal? (s : String) : Option Double := do
  let (negative, rest) := signed s.toLower.toList
  if rest = "inf".toList ∨ rest = "infinity".toList then some (.infinite negative)
  else if rest = "nan".toList then some .notANumber
  else
    let (digits, places) ← pointed? (rest.takeWhile (· ≠ 'e'))
    match rest.dropWhile (· ≠ 'e') with
    | [] => some (.ofDecimal negative digits (-places))
    | _ :: exponent => do
      let e ← integer? exponent
      some (.ofDecimal negative digits (e - places))

end SeriesBlock.Text
