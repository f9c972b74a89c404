/-!
# Postings

The references of all series that carry one label, in stored order, with a cursor. The cursor stands before the
first reference until it is moved, and at the end once it has passed the last. `seek` looks for a reference by
halving what is ahead, which needs an ascending list; the other moves do not.
-/

set_option autoImplicit false

namespace SeriesBlock

/-- Where the record of a series starts in the index buffer. -/
abbrev SeriesRef := UInt32

/-- A list of series references and a cursor in it: `none` before the first move, otherwise the position of the
current reference, or the length at the end. -/
structure Postings where
  refs : List SeriesRef
  cursor : Option Nat := none
deriving DecidableEq, Repr

namespace Postings

/-- The postings of a list, the cursor before its first reference. -/
def ofList (refs : List SeriesRef) : Postings := { refs }

/-- The whole list, wherever the cursor stands. -/
def toList (p : Postings) : List SeriesRef := p.refs

/-- How many references there are, wherever the cursor stands. -/
def length (p : Postings) : Nat := p.refs.length

/-- Whether there are none. -/
def isEmpty (p : Postings) : Bool := p.refs.isEmpty

/-- The reference at the cursor. -/
def current? (p : Postings) : Option SeriesRef :=
  p.cursor.bind fun c => p.refs[c]?

/-- The first position ahead of the cursor. -/
def ahead (p : Postings) : Nat :=
  match p.cursor with
  | none => 0
  | some c => min (c + 1) p.refs.length

/-- Moves to the next reference and reports whether there is one. -/
def advance (p : Postings) : Bool × Postings :=
  (decide (p.ahead < p.refs.length), { p with cursor := some p.ahead })

/-- Moves to the next reference and gives it. -/
def next (p : Postings) : Option SeriesRef × Postings :=
  match p.advance with
  | (true, q) => (q.current?, q)
  | (false, q) => (none, q)

/-- How many references are ahead of the cursor. -/
def left (p : Postings) : Nat :=
  p.refs.length - p.ahead

/-- The references ahead of the cursor, and the postings with the cursor at the end. -/
def drain (p : Postings) : List SeriesRef × Postings :=
  (p.refs.drop p.ahead, { p with cursor := some p.refs.length })

/-- The first position from `low` to `high` whose reference is at least `x`, or `high`; by halving, on the
assumption that references ascend. -/
def lowerBound (refs : List SeriesRef) (x : SeriesRef) (low high : Nat) : Nat :=
  if low < high then
    let middle := low + (high - low) / 2
    match refs[middle]? with
    | some r => if r < x then lowerBound refs x (middle + 1) high else lowerBound refs x low middle
    | none => low
  else low
  termination_by high - low

/-- Moves to the first reference from the cursor on that is at least `x`, and reports whether there is one. A
current reference that is large enough stays current. -/
def seek (p : Postings) (x : SeriesRef) : Bool × Postings :=
  if p.current?.any (x ≤ ·) then (true, p)
  else
    let found := lowerBound p.refs x p.ahead p.refs.length
    (decide (found < p.refs.length), { p with cursor := some found })

end Postings

end SeriesBlock
