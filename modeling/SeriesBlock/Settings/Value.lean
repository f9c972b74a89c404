import SeriesBlock.Text.Number

/-!
# Settings

Settings come as values of a few kinds from files and from the environment, and sources are laid one over
another: a later source replaces single values and leaves the rest (`put`). Where a value goes is said by a path of
names and of places in lists. Names of settings do not depend on case. A setting is read by what it is wanted for, so
that a flag may also be given as a number or a word.
-/

set_option autoImplicit false

namespace SeriesBlock

/-- The value of a setting. -/
inductive Setting where
  | boolean (b : Bool)
  | integer (n : Int)
  | decimal (d : Double)
  | text (s : String)
  | list (items : List Setting)
  | table (fields : List (String × Setting))
  /-- A place in a list that nothing has been put at. -/
  | blank
deriving Inhabited

/-- One step on a path to a value. -/
inductive SettingStep where
  /-- Into a table. -/
  | name (s : String)
  /-- Into a list; below zero places count from its end. -/
  | place (i : Int)
deriving DecidableEq, Repr

namespace Setting

/-- The small form of a letter. Beside the capital letters of ASCII only the sign for kelvin has one that is in
ASCII; the names of settings have no other letters. -/
def foldChar (c : Char) : Char :=
  if c = '\u212a' then 'k' else c.toLower

/-- The name of a setting, whatever its case. -/
def fold (name : String) : String :=
  String.ofList (name.toList.map foldChar)

/-- The fields with the one of a name set. -/
def assign (name : String) (v : Setting) : List (String × Setting) → List (String × Setting)
  | [] => [(name, v)]
  | (k, old) :: rest => if k = name then (k, v) :: rest else (k, old) :: assign name v rest

/-- The fields of a table; nothing else has any. -/
def fields : Setting → List (String × Setting)
  | table fs => fs
  | _ => []

/-- The items of a list; nothing else has any. -/
def items : Setting → List Setting
  | list xs => xs
  | _ => []

/-- The position of a place in a list of a given length. -/
def position (length : Nat) (i : Int) : Nat :=
  if 0 ≤ i then i.toNat else length - i.natAbs

/-- The list with an item set, filled up with blanks before it. -/
def place (n : Nat) (v : Setting) (xs : List Setting) : List Setting :=
  (xs ++ List.replicate (n + 1 - xs.length) blank).set n v

mutual

/-- A value laid over what is there: a table keeps what it has no field for, and an empty one leaves all that is there.
Anything else replaces it. -/
def laidOver : Setting → Option Setting → Setting
  | table [], some old => old
  | table new, old => table (overFields new (old.getD blank).fields)
  | v, _ => v

/-- The fields with others laid over them, one after another. -/
def overFields : List (String × Setting) → List (String × Setting) → List (String × Setting)
  | [], fs => fs
  | (k, v) :: rest, fs => overFields rest (assign (fold k) (laidOver v (fs.lookup (fold k))) fs)

end

/-- A value put at a path in what is there. What is on the way and no table or list gives way to one. An item of a
list is replaced, a field has the value laid over it. -/
def put (v : Setting) : List SettingStep → Option Setting → Setting
  | [], old => v.laidOver old
  | .name s :: more, old =>
    let fs := (old.getD blank).fields
    table (assign (fold s) (put v more (fs.lookup (fold s))) fs)
  | .place i :: more, old =>
    let xs := (old.getD blank).items
    let n := position xs.length i
    list (place n (put v more (if more.isEmpty then none else xs[n]?)) xs)

/-- The fields with a value put at a path in them. -/
def putAt (v : Setting) (path : List SettingStep) (fs : List (String × Setting)) : List (String × Setting) :=
  (v.put path (some (table fs))).fields

/-- A value wanted as text: numbers and flags will do. -/
def asText? : Setting → Option String
  | text s => some s
  | boolean b => some (toString b)
  | integer n => some (toString n)
  | decimal d => some d.toText
  | list _ | table _ | blank => none

/-- The words for a flag. -/
def flagOfWord? (word : String) : Option Bool :=
  let w := word.toLower
  if w = "1" ∨ w = "true" ∨ w = "on" ∨ w = "yes" then some true
  else if w = "0" ∨ w = "false" ∨ w = "off" ∨ w = "no" then some false
  else none

/-- A value wanted as a flag: numbers other than zero are on, and so are some words. -/
def asFlag? : Setting → Option Bool
  | boolean b => some b
  | integer n => some (n != 0)
  | decimal d => some !d.isZero
  | text s => flagOfWord? s
  | list _ | table _ | blank => none

end Setting

/-! ## Paths in text -/

namespace SettingPath

/-- Whether a character may stand in a name on a path. -/
def isNameChar (c : Char) : Bool :=
  c.isAlphanum || c = ' ' || c = '_' || c = '-'

/-- The place that stands between brackets: an integer, with blanks around it. -/
def place? (cs : List Char) : Option Int :=
  let isBlank := fun c : Char => c = ' ' || c = '\t'
  let cs := ((cs.dropWhile isBlank).reverse.dropWhile isBlank).reverse
  if cs.head? = some '+' then none else (Text.signed64? (String.ofList cs)).map Int64.toInt

/-- The steps after the first name of a path, of which there are at most `fuel`: a point and a name, or a place in
brackets. -/
def steps? : Nat → List Char → Option (List SettingStep)
  | _, [] => some []
  | 0, _ => none
  | fuel + 1, '.' :: cs =>
    let name := cs.takeWhile isNameChar
    if name.isEmpty then none
    else (steps? fuel (cs.drop name.length)).map (.name (String.ofList name) :: ·)
  | fuel + 1, '[' :: cs =>
    let inside := cs.takeWhile (· ≠ ']')
    match place? inside, cs.drop inside.length with
    | some i, _ :: rest => (steps? fuel rest).map (.place i :: ·)
    | _, _ => none
  | _, _ => none

/-- The path that a text stands for, in small letters. What is no path is one name. -/
def ofKey (key : String) : List SettingStep :=
  let key := Setting.fold key
  (steps? (key.length + 1) ('.' :: key.toList)).getD [.name key]

end SettingPath

/-- The fields that a run of keys and values makes, each key taken as a path. -/
def Setting.putAll (entries : List (String × Setting)) : List (String × Setting) :=
  entries.foldl (fun fs (key, v) => v.putAt (SettingPath.ofKey key) fs) []

end SeriesBlock
