import SeriesBlock.Tuples.InMemory
import SeriesBlock.Tuples.Stored

/-!
# Tuples of strings

The values of a label index, from memory or from a buffer, behind one set of operations. Positions mean what they
mean to the representation: tuples in memory are addressed by string, stored ones by tuple. Walking through all
tuples is the same for both.
-/

set_option autoImplicit false

namespace SeriesBlock

/-- A list of tuples of one arity, in either representation. -/
inductive Tuples where
  | inMemory (t : InMemoryTuples)
  | stored (t : StoredTuples)

namespace Tuples

/-- How many strings make a tuple. -/
def arity : Tuples → UInt64
  | inMemory t => t.arity
  | stored t => t.arity

/-- How many tuples there are. -/
def length : Tuples → Nat
  | inMemory t => t.length
  | stored t => t.length

/-- Whether there are none. -/
def isEmpty (t : Tuples) : Bool := t.length == 0

/-- The strings at a position. -/
def at? (i : UInt64) : Tuples → Except BlockError (List String)
  | inMemory t =>
    match t.get? i with
    | some strings => .ok strings
    | none => .error .invalidSize
  | stored t => t.at? i

/-- All tuples in order, each with its own outcome. -/
def toList : Tuples → List (Except BlockError (List String))
  | inMemory t => t.toList.map .ok
  | stored t => t.toList

end Tuples

end SeriesBlock
