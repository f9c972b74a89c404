import SeriesBlock.Document
import SeriesBlock.Text.Utf8

/-!
# Labels

A series is told apart by its labels, pairs of a name and a value. Labels are ordered by name and then by value,
both by their bytes.
-/

set_option autoImplicit false

namespace SeriesBlock

/-- A name and a value. -/
structure Label where
  name : String
  value : String
deriving DecidableEq, Repr

namespace Label

/-- The order of labels: by the bytes of the name, then by those of the value. -/
def le (a b : Label) : Bool :=
  let nameA := Utf8.encode a.name
  let nameB := Utf8.encode b.name
  decide (nameA < nameB) || (nameA == nameB && decide (Utf8.encode a.value ≤ Utf8.encode b.value))

/-- Labels in ascending order. -/
def sort (labels : List Label) : List Label :=
  labels.mergeSort le

/-- A label from a document. -/
def ofDocument? (d : Document) : Option Label := do
  match ← d.fields? ["name", "value"] with
  | [some name, some value] => some ⟨← name.text?, ← value.text?⟩
  | _ => none

/-- A label as a document. -/
def toDocument (l : Label) : Document :=
  .object [("name", .text l.name), ("value", .text l.value)]

end Label

end SeriesBlock
