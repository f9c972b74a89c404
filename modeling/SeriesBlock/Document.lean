/-!
# Documents

Values made of numbers, texts, lists and named fields, as they are exchanged with other programs. A record is read
from an object by the names of its fields, other fields ignored, or from a list that has exactly its fields in
order.
-/

set_option autoImplicit false

namespace SeriesBlock

/-- A value to exchange. -/
inductive Document where
  | null
  | boolean (b : Bool)
  | integer (n : Int)
  /-- A number with a fractional part or an exponent. -/
  | decimal
  | text (s : String)
  | list (items : List Document)
  | object (fields : List (String × Document))
deriving Inhabited

namespace Document

/-- The values of the named fields of a record, in the order of the names; `none` for a field that is absent from
an object. -/
def fields? (d : Document) (names : List String) : Option (List (Option Document)) :=
  match d with
  | object fields => some (names.map fun name => fields.lookup name)
  | list items => if items.length = names.length then some (items.map some) else none
  | _ => none

/-- The number, if it is an integer from `low` to `high`. -/
def integerIn? (low high : Int) : Document → Option Int
  | integer n => if low ≤ n ∧ n ≤ high then some n else none
  | _ => none

/-- An unsigned number of 32 bits. -/
def word32? (d : Document) : Option UInt32 :=
  (d.integerIn? 0 (UInt32.size - 1)).map fun n => UInt32.ofNat n.toNat

/-- An unsigned number of 64 bits. -/
def word64? (d : Document) : Option UInt64 :=
  (d.integerIn? 0 (UInt64.size - 1)).map fun n => UInt64.ofNat n.toNat

/-- A signed number of 64 bits. -/
def signed64? (d : Document) : Option Int64 :=
  (d.integerIn? Int64.minValue.toInt Int64.maxValue.toInt).map Int64.ofInt

/-- A text. -/
def text? : Document → Option String
  | text s => some s
  | _ => none

end Document

end SeriesBlock
