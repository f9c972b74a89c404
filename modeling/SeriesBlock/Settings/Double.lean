/-!
# Numbers in double precision

A number with a fractional part or an exponent is kept as the nearest number of 53 binary digits, its last digit
even where two are equally near. What lies beyond the largest of these is infinite, what lies nearest to zero is
zero. A number is shown by the shortest run of decimal digits that is read back as the same number, and of these
by the one nearest to it, without an exponent.

All arithmetic is on natural numbers and exact.
-/

set_option autoImplicit false

namespace SeriesBlock

/-- A number in double precision. A finite one is `mantissa` times two to the power of `exponent`. -/
inductive Double where
  | finite (negative : Bool) (mantissa : Nat) (exponent : Int)
  | infinite (negative : Bool)
  | notANumber
deriving DecidableEq, Repr

namespace Double

/-- The number of binary digits of a mantissa. -/
def precision : Nat := 53

/-- The least exponent. -/
def minExponent : Int := -1074

/-- The greatest exponent. -/
def maxExponent : Int := 971

/-- The mantissa of a number that has as many binary digits as there may be, but no more than needed. -/
def leadingMantissa : Nat := 1 <<< (precision - 1)

/-- The numerator and the denominator of `n` times a power. -/
def scaled (n base : Nat) (exponent : Int) : Nat × Nat :=
  if 0 ≤ exponent then (n * base.pow exponent.natAbs, 1) else (n, base.pow exponent.natAbs)

/-- The nearest whole number to a quotient, or the even one of two. -/
def roundedQuotient (n d : Nat) : Nat :=
  let q := n / d
  let r := n % d
  if d < 2 * r ∨ (2 * r = d ∧ q % 2 = 1) then q + 1 else q

/-- The mantissa and the exponent of the nearest number to a positive quotient. The exponent is the least with
which the quotient has no more binary digits than there may be. -/
def ofQuotient (n d : Nat) : Nat × Int :=
  let units := fun (exponent : Int) =>
    let (up, down) := scaled 1 2 exponent
    (n * down, d * up)
  let guess := max minExponent ((n.log2 : Int) - d.log2 - precision)
  let (a, b) := units guess
  let exponent := if a / b < 1 <<< precision then guess else guess + 1
  let (a, b) := units exponent
  let mantissa := roundedQuotient a b
  if mantissa = 1 <<< precision then (leadingMantissa, exponent + 1) else (mantissa, exponent)

/-- The number nearest to `digits` times ten to the power of `exponent`. Powers so large or so small that they
settle the outcome are not computed. -/
def ofDecimal (negative : Bool) (digits : Nat) (exponent : Int) : Double :=
  if digits = 0 ∨ digits.log2 + 3 * exponent < minExponent - 2 then finite negative 0 minExponent
  else if 400 < exponent then infinite negative
  else
    let (n, d) := scaled digits 10 exponent
    let (mantissa, binaryExponent) := ofQuotient n d
    if maxExponent < binaryExponent then infinite negative else finite negative mantissa binaryExponent

/-- Whether a number is zero. -/
def isZero : Double → Bool
  | finite _ mantissa _ => mantissa == 0
  | _ => false

/-! ## Decimal digits -/

/-- The digits of a positive number that end at a power of ten, if digits that end there are read back as the
number: of the two neighbours on that grid the one that is, or the nearer one, or the greater one. -/
def digitsAt? (mantissa : Nat) (exponent power : Int) : Option Nat :=
  let below := if mantissa = leadingMantissa then 1 else 2
  let (ten, tenth) := scaled 1 10 power
  let (quarter, part) := scaled 1 2 (exponent - 2)
  let a := quarter * tenth
  let b := ten * part
  let isRead := fun (c : Nat) =>
    let low := (4 * mantissa - below) * a
    let high := (4 * mantissa + 2) * a
    if mantissa % 2 = 0 then decide (low ≤ c * b ∧ c * b ≤ high) else decide (low < c * b ∧ c * b < high)
  let c := 4 * mantissa * a / b
  let nearer := if 2 * (4 * mantissa * a - c * b) < b then c else c + 1
  if isRead nearer then some nearer
  else if isRead c then some c
  else if isRead (c + 1) then some (c + 1)
  else none

/-- The fewest digits that are read back as a positive number, and the power of ten they end at, among `fuel`
powers from the given one down. -/
def shortestFrom (mantissa : Nat) (exponent : Int) : Nat → Int → Nat × Int
  | 0, power => (0, power)
  | fuel + 1, power =>
    match digitsAt? mantissa exponent power with
    | some digits => (digits, power)
    | none => shortestFrom mantissa exponent fuel (power - 1)

/-- The fewest digits that are read back as a number, and the power of ten they end at. No number reaches
`10 ^ 309`, and every one has a digit that is not zero before the place of `10 ^ (-343)`. -/
def shortest (mantissa : Nat) (exponent : Int) : Nat × Int :=
  if mantissa = 0 then (0, 0) else shortestFrom mantissa exponent 653 309

/-- Digits that end at a power of ten, written without an exponent. -/
def plainText (digits : Nat) (power : Int) : String :=
  let text := toString digits
  if 0 ≤ power then text ++ "".pushn '0' power.natAbs
  else
    let places := power.natAbs
    let cs := ("".pushn '0' (places + 1 - text.length) ++ text).toList
    let whole := cs.length - places
    String.ofList (cs.take whole) ++ "." ++ String.ofList (cs.drop whole)

/-- The shortest text of a number. -/
def toText : Double → String
  | finite negative mantissa exponent =>
    let (digits, power) := shortest mantissa exponent
    (if negative then "-" else "") ++ plainText digits power
  | infinite negative => if negative then "-inf" else "inf"
  | notANumber => "NaN"

end Double

end SeriesBlock
