import SeriesBlock.Settings.Value

/-!
# Settings in TOML

A reader for TOML documents: keys and values line by line, tables opened by headers, inline tables and arrays,
four kinds of strings, integers in four bases, decimal numbers, and dates, which are kept as text. A document
that defines a key or a table twice, or that breaks the grammar anywhere, has no settings.

Every loop takes at least one character in each turn and is bounded by the length of the document. How deep values
are nested and how many parts a key has is bounded by `depthLimit`, and more is malformed.
-/

set_option autoImplicit false

namespace SeriesBlock.Toml

/-- A reading step over the characters of a document. -/
abbrev Parser := StateT (List Char) Option

/-! ## Characters -/

/-- The next character, if there is one, left where it is. -/
def peek : Parser (Option Char) := do
  return (← get).head?

/-- The next character. -/
def next : Parser Char := do
  match ← get with
  | c :: rest =>
    set rest
    return c
  | [] => failure

/-- The characters from here on that satisfy a condition. -/
def takeWhile (p : Char → Bool) : Parser (List Char) := do
  let cs ← get
  set (cs.dropWhile p)
  return cs.takeWhile p

/-- Takes a given text if it comes next, and says whether it did. -/
def accept (s : String) : Parser Bool := do
  let cs ← get
  if s.toList.isPrefixOf cs then
    set (cs.drop s.length)
    return true
  else return false

/-- Takes a given text, which has to come next. -/
def expect (s : String) : Parser Unit := do
  if ← accept s then return () else failure

/-- Spaces and tabs. -/
def isBlank (c : Char) : Bool := c = ' ' || c = '\t'

/-- Passes over spaces and tabs. -/
def skipBlank : Parser Unit := do
  let _ ← takeWhile isBlank

/-- Takes the end of a line if it comes next. -/
def newline : Parser Bool := do
  if ← accept "\n" then return true else accept "\r\n"

/-- Whether a character may stand in comments and strings. -/
def isPlain (c : Char) : Bool :=
  c = '\t' || (' ' ≤ c && c ≠ '\x7f')

/-- Passes over a comment up to the end of its line. -/
def skipComment : Parser Unit := do
  if ← accept "#" then
    let _ ← takeWhile isPlain

/-- What follows a complete line: blanks, a comment, and the end of the line or of the document. -/
def lineEnd : Parser Unit := do
  skipBlank
  skipComment
  if (← peek).isNone then return ()
  else if ← newline then return () else failure

/-- The characters behind blanks, comments and ends of lines, given whether they begin in a comment. -/
def afterFiller : Bool → List Char → List Char
  | _, '\n' :: cs => afterFiller false cs
  | _, '\r' :: '\n' :: cs => afterFiller false cs
  | false, '#' :: cs => afterFiller true cs
  | inComment, c :: cs => if isBlank c || (inComment && isPlain c) then afterFiller inComment cs else c :: cs
  | _, [] => []

/-- Passes over blanks, comments and ends of lines. -/
def skipFiller : Parser Unit :=
  modify (afterFiller false)

/-! ## Strings -/

/-- The value of a hexadecimal digit. -/
def hexValue? (c : Char) : Option Nat :=
  if '0' ≤ c ∧ c ≤ '9' then some (c.toNat - '0'.toNat)
  else if 'a' ≤ c ∧ c ≤ 'f' then some (c.toNat - 'a'.toNat + 10)
  else if 'A' ≤ c ∧ c ≤ 'F' then some (c.toNat - 'A'.toNat + 10)
  else none

/-- A character given by `n` hexadecimal digits. -/
def numbered (n : Nat) : Parser Char := do
  let cs ← get
  let digits := cs.take n
  if digits.length < n then failure
  else
    match digits.mapM hexValue? with
    | none => failure
    | some values =>
      let code := values.foldl (fun v d => 16 * v + d) 0
      if code.isValidChar then
        set (cs.drop n)
        return Char.ofNat code
      else failure

/-- What follows a backslash. -/
def escaped : Parser Char := do
  match ← next with
  | 'b' => return '\x08'
  | 't' => return '\t'
  | 'n' => return '\n'
  | 'f' => return '\x0c'
  | 'r' => return '\r'
  | '"' => return '"'
  | '\\' => return '\\'
  | 'u' => numbered 4
  | 'U' => numbered 8
  | _ => failure

/-- The rest of a string in double quotes. -/
def basicRest : Nat → Parser (List Char)
  | 0 => failure
  | fuel + 1 => do
    match ← next with
    | '"' => return []
    | '\\' => return (← escaped) :: (← basicRest fuel)
    | c => if isPlain c then return c :: (← basicRest fuel) else failure

/-- The rest of a string in single quotes. -/
def literalRest : Parser (List Char) := do
  let cs ← takeWhile fun c => isPlain c && c ≠ '\''
  expect "'"
  return cs

/-- Passes over blanks and ends of lines. -/
def skipSpace : Nat → Parser Unit
  | 0 => failure
  | fuel + 1 => do
    skipBlank
    if ← newline then skipSpace fuel else return ()

/-- Up to two quotes that stand before the three that end a string of several lines. -/
def closing (quote : String) : Parser (Option (List Char)) := do
  let three := quote ++ quote ++ quote
  if ← accept (three ++ quote ++ quote) then return some (quote ++ quote).toList
  else if ← accept (three ++ quote) then return some quote.toList
  else if ← accept three then return some []
  else return none

/-- The rest of a string of several lines in double quotes. A backslash at the end of a line joins the lines and
drops the blanks between. -/
def multiBasicRest : Nat → Parser (List Char)
  | 0 => failure
  | fuel + 1 => do
    match ← closing "\"" with
    | some quotes => return quotes
    | none =>
      if ← newline then return '\n' :: (← multiBasicRest fuel)
      else
        match ← next with
        | '\\' =>
          if ((← get).dropWhile isBlank).head?.any fun c => c = '\n' || c = '\r' then
            skipBlank
            if ← newline then
              skipSpace fuel
              multiBasicRest fuel
            else failure
          else return (← escaped) :: (← multiBasicRest fuel)
        | c => if isPlain c then return c :: (← multiBasicRest fuel) else failure

/-- The rest of a string of several lines in single quotes. -/
def multiLiteralRest : Nat → Parser (List Char)
  | 0 => failure
  | fuel + 1 => do
    match ← closing "'" with
    | some quotes => return quotes
    | none =>
      if ← newline then return '\n' :: (← multiLiteralRest fuel)
      else
        let c ← next
        if isPlain c then return c :: (← multiLiteralRest fuel) else failure

/-- A string on one line, if one comes next. -/
def shortString? : Parser (Option String) := do
  if ← accept "\"" then return some (String.ofList (← basicRest (← get).length))
  else if ← accept "'" then return some (String.ofList (← literalRest))
  else return none

/-- A string of any kind, if one comes next. -/
def anyString? : Parser (Option String) := do
  if ← accept "\"\"\"" then
    let _ ← newline
    return some (String.ofList (← multiBasicRest (← get).length))
  else if ← accept "'''" then
    let _ ← newline
    return some (String.ofList (← multiLiteralRest (← get).length))
  else shortString?

/-! ## Numbers and dates -/

/-- Digits with single underscores between them, without the underscores. -/
def digits? (isDigit : Char → Bool) : List Char → Option (List Char)
  | [] => none
  | [c] => if isDigit c then some [c] else none
  | c :: '_' :: rest => if isDigit c then (digits? isDigit rest).map (c :: ·) else none
  | c :: rest => if isDigit c then (digits? isDigit rest).map (c :: ·) else none

/-- The number that digits stand for in a base. -/
def numeral (base : Nat) (cs : List Char) : Nat :=
  cs.foldl (fun n c => base * n + (hexValue? c).getD 0) 0

/-- A number that fits 64 bits with a sign. -/
def integer? (negative : Bool) (n : Nat) : Option Setting :=
  let i : Int := if negative then -n else n
  if Int64.minValue.toInt ≤ i ∧ i ≤ Int64.maxValue.toInt then some (.integer i) else none

/-- A sign, and the characters after it. -/
def signed : List Char → Bool × List Char
  | '+' :: rest => (false, rest)
  | '-' :: rest => (true, rest)
  | cs => (false, cs)

/-- Decimal digits without a zero in front of others. -/
def wholeDigits? (cs : List Char) : Option (List Char) := do
  let ds ← digits? Char.isDigit cs
  match ds with
  | '0' :: _ :: _ => none
  | _ => some ds

/-- An exponent, if there is one; it begins with a letter. -/
def exponent? : List Char → Option Int
  | [] => some 0
  | _ :: cs => do
    let (negative, rest) := signed cs
    let ds ← digits? Char.isDigit rest
    let n := numeral 10 ds
    some (if negative then -n else n)

/-- The number of given digits and exponent. One that is too great is malformed; one as far below zero is not, and
counts as infinite. -/
def decimalOf? (negative : Bool) (digits : Nat) (exponent : Int) : Option Setting :=
  match Double.ofDecimal negative digits exponent with
  | .infinite false => none
  | d => some (.decimal d)

/-- A decimal number with a point or an exponent or both. -/
def decimal? (negative : Bool) (cs : List Char) : Option Setting := do
  let isMark := fun c : Char => c = 'e' || c = 'E'
  let mantissa := cs.takeWhile fun c => !isMark c
  let exponent ← exponent? (cs.dropWhile fun c => !isMark c)
  match mantissa.splitOn '.' with
  | [whole] => do
    let ds ← wholeDigits? whole
    decimalOf? negative (numeral 10 ds) exponent
  | [whole, places] => do
    let ds ← wholeDigits? whole
    let ps ← digits? Char.isDigit places
    decimalOf? negative (numeral 10 (ds ++ ps)) (exponent - ps.length)
  | _ => none

/-- A number in one of its written forms. -/
def number? (cs : List Char) : Option Setting :=
  match cs with
  | '0' :: 'x' :: rest => do integer? false (numeral 16 (← digits? (fun c => (hexValue? c).isSome) rest))
  | '0' :: 'o' :: rest => do integer? false (numeral 8 (← digits? (fun c => '0' ≤ c && c ≤ '7') rest))
  | '0' :: 'b' :: rest => do integer? false (numeral 2 (← digits? (fun c => c = '0' || c = '1') rest))
  | _ =>
    let (negative, rest) := signed cs
    if rest = "inf".toList then some (.decimal (.infinite negative))
    else if rest = "nan".toList then some (.decimal .notANumber)
    else if rest.any fun c => c = '.' || c = 'e' || c = 'E' then decimal? negative rest
    else do integer? negative (numeral 10 (← wholeDigits? rest))

/-- A number of exactly two digits up to a bound. -/
def twoDigits? (low high : Nat) : List Char → Option Nat
  | [a, b] =>
    if a.isDigit ∧ b.isDigit then
      let n := numeral 10 [a, b]
      if low ≤ n ∧ n ≤ high then some n else none
    else none
  | _ => none

/-- The days of a month. -/
def daysOf (year month : Nat) : Nat :=
  if month = 2 then
    if year % 4 = 0 ∧ (year % 100 ≠ 0 ∨ year % 400 = 0) then 29 else 28
  else if month = 4 ∨ month = 6 ∨ month = 9 ∨ month = 11 then 30
  else 31

/-- Whether ten characters are a date. -/
def isDate (cs : List Char) : Bool :=
  match cs.splitOn '-' with
  | [year, month, day] =>
    year.length = 4 && year.all Char.isDigit &&
      ((twoDigits? 1 12 month).any fun m => (twoDigits? 1 (daysOf (numeral 10 year) m) day).isSome)
  | _ => false

/-- A time of day in its kept form, without zeros at the end of its fraction. -/
def time? (cs : List Char) : Option String := do
  let clock := cs.take 8
  let fraction := cs.drop 8
  match clock.splitOn ':' with
  | [hour, minute, second] =>
    let _ ← twoDigits? 0 23 hour
    let _ ← twoDigits? 0 59 minute
    let _ ← twoDigits? 0 60 second
    match fraction with
    | [] => some (String.ofList clock)
    | '.' :: places =>
      if places.isEmpty || !places.all Char.isDigit then none
      else
        let kept := ((places.take 9).reverse.dropWhile (· = '0')).reverse
        some (String.ofList (if kept.isEmpty then clock else clock ++ '.' :: kept))
    | _ => none
  | _ => none

/-- A time of day that may be followed by its distance from universal time. No distance is kept as a positive one. -/
def timeWithOffset? (cs : List Char) : Option String := do
  let clock := cs.takeWhile fun c => c.isDigit || c = ':' || c = '.'
  let t ← time? clock
  match cs.drop clock.length with
  | [] => some t
  | ['z'] | ['Z'] => some (t ++ "Z")
  | sign :: offset =>
    if sign = '+' ∨ sign = '-' then
      match offset.splitOn ':' with
      | [hour, minute] => do
        let hours ← twoDigits? 0 23 hour
        let minutes ← twoDigits? 0 59 minute
        let kept := if hours = 0 ∧ minutes = 0 then '+' else sign
        some (t ++ String.singleton kept ++ String.ofList offset)
      | _ => none
    else none

/-- A date, a time, or both, in its kept form. -/
def dateTime? (cs : List Char) : Option String :=
  if isDate (cs.take 10) then
    match cs.drop 10 with
    | [] => some (String.ofList cs)
    | mark :: rest =>
      if mark = 'T' ∨ mark = 't' ∨ mark = ' ' then
        (timeWithOffset? rest).map fun t => String.ofList (cs.take 10) ++ "T" ++ t
      else none
  else time? cs

/-! ## Tables under construction -/

/-- How a table came about: on the way to another one, by a key with points, by a header of its own, or as a value
in braces. -/
inductive Origin where
  | onTheWay
  | byKey
  | byHeader
  | inBraces
deriving DecidableEq, Repr

/-- What stands under a key while a document is read: a value without parts, a date or a time, an array, a table, or
a list of tables that each have a header. -/
inductive Node where
  | value (v : Setting)
  | moment (s : String)
  | array (items : List Node)
  | table (origin : Origin) (fields : List (String × Node))
  | rows (tables : List (List (String × Node)))
deriving Inhabited

/-- The fields of a table under construction. -/
abbrev Fields := List (String × Node)

/-- The fields with one replaced, or added at the end. -/
def replace (key : String) (node : Node) : Fields → Fields
  | [] => [(key, node)]
  | (k, old) :: rest => if k = key then (k, node) :: rest else (k, old) :: replace key node rest

/-- The fields without those of a key. -/
def without (key : String) (fields : Fields) : Fields :=
  fields.filter fun f => f.1 ≠ key

/-- Changes the fields of the last table of a list. -/
def onLast (f : Fields → Option Fields) : List Fields → Option (List Fields)
  | [] => none
  | [t] => do return [← f t]
  | t :: more => do return t :: (← onLast f more)

/-- Adds a value under a key with points. A key that is there is not written again, and tables that have headers
are not reached this way. -/
def addValue (v : Node) : List String → Fields → Option Fields
  | [], _ => none
  | [key], fields => if (fields.lookup key).isSome then none else some (fields ++ [(key, v)])
  | key :: more, fields =>
    match fields.lookup key with
    | none => do return replace key (.table .byKey (← addValue v more [])) fields
    | some (.table .byKey inner) => do return replace key (.table .byKey (← addValue v more inner)) fields
    | some (.table .onTheWay inner) =>
      if more.length = 1 then none
      else do return replace key (.table .onTheWay (← addValue v more inner)) fields
    | some (.rows tables) =>
      if more.length = 1 then none
      else do return replace key (.rows (← onLast (addValue v more) tables)) fields
    | some _ => none

/-- Changes the fields of the table at a path of headers; what is missing on the way is made. -/
def atTable (f : Fields → Option Fields) : List String → Fields → Option Fields
  | [], fields => f fields
  | key :: more, fields =>
    match fields.lookup key with
    | none => do return replace key (.table .onTheWay (← atTable f more [])) fields
    | some (.table .inBraces _) => none
    | some (.table origin inner) => do return replace key (.table origin (← atTable f more inner)) fields
    | some (.rows tables) => do return replace key (.rows (← onLast (atTable f more) tables)) fields
    | some _ => none

/-- Opens a table by its header. One that was on the way to others moves to the end. -/
def openTable (key : String) (fields : Fields) : Option Fields :=
  match fields.lookup key with
  | none => some (fields ++ [(key, .table .byHeader [])])
  | some (.table .onTheWay inner) => some (without key fields ++ [(key, .table .byHeader inner)])
  | some _ => none

/-- Opens the next table of a list by its header. -/
def openRow (key : String) (fields : Fields) : Option Fields :=
  match fields.lookup key with
  | none => some (fields ++ [(key, .rows [[]])])
  | some (.rows tables) => some (replace key (.rows (tables ++ [[]])) fields)
  | some _ => none

/-! ## Finished values -/

/-- A table that starts with this key stands for the date or time that its value spells out. -/
def momentKey : String := "$__toml_private_datetime"

mutual

/-- The finished value of a node. -/
def Node.toSetting? : Node → Option Setting
  | .value v => some v
  | .moment s => some (.text s)
  | .array items => (itemSettings? items).map .list
  | .table _ fields => tableSetting? fields
  | .rows tables => (rowSettings? tables).map .list

/-- The finished value of a table. -/
def tableSetting? : List (String × Node) → Option Setting
  | [] => some (.table [])
  | (k, n) :: rest =>
    if k = momentKey then
      match n with
      | .value (.text s) => (dateTime? s.toList).map .text
      | _ => none
    else
      match n.toSetting?, fieldSettings? rest with
      | some v, some fs => some (.table ((k, v) :: fs))
      | _, _ => none

/-- The finished fields of a table. -/
def fieldSettings? : List (String × Node) → Option (List (String × Setting))
  | [] => some []
  | (k, n) :: rest =>
    match n.toSetting?, fieldSettings? rest with
    | some v, some fs => some ((k, v) :: fs)
    | _, _ => none

/-- The finished items of an array. -/
def itemSettings? : List Node → Option (List Setting)
  | [] => some []
  | n :: rest =>
    match n.toSetting?, itemSettings? rest with
    | some v, some vs => some (v :: vs)
    | _, _ => none

/-- The finished tables of a list. -/
def rowSettings? : List (List (String × Node)) → Option (List Setting)
  | [] => some []
  | t :: rest =>
    match tableSetting? t, rowSettings? rest with
    | some v, some vs => some (v :: vs)
    | _, _ => none

end

/-! ## Keys and values -/

/-- Whether a character may stand in a value without quotes. -/
def isScalarChar (c : Char) : Bool :=
  c.isAlphanum || c = '_' || c = '+' || c = '-' || c = '.' || c = ':'

/-- A value without quotes: a flag, a number or a date. A date and a time may have one space between them. -/
def scalar : Parser Node := do
  let head ← takeWhile isScalarChar
  let joined := isDate head && (match ← get with
    | ' ' :: c :: _ => c.isDigit
    | _ => false)
  let tail ← if joined then do
      let space ← next
      pure (space :: (← takeWhile isScalarChar))
    else pure []
  let cs := head ++ tail
  if cs = "true".toList then return .value (.boolean true)
  else if cs = "false".toList then return .value (.boolean false)
  else
    match number? cs with
    | some v => return .value v
    | none =>
      match dateTime? cs with
      | some s => return .moment s
      | none => failure

/-- Whether a character may stand in a key without quotes. -/
def isKeyChar (c : Char) : Bool :=
  c.isAlphanum || c = '_' || c = '-'

/-- One part of a key. -/
def keyPart : Parser String := do
  match ← shortString? with
  | some s => return s
  | none =>
    let cs ← takeWhile isKeyChar
    if cs.isEmpty then failure else return String.ofList cs

/-- How deep values may be nested, and how many parts a key may have. -/
def depthLimit : Nat := 79

/-- At most `limit` parts of a key, separated by points. -/
def keyParts : Nat → Parser (List String)
  | 0 => failure
  | limit + 1 => do
    let part ← keyPart
    skipBlank
    if ← accept "." then
      skipBlank
      return part :: (← keyParts limit)
    else return [part]

/-- A key, its parts separated by points. -/
def key : Parser (List String) := keyParts depthLimit

/-- The items of an array up to its end, given how one is read. -/
def items (item : Parser Node) : Nat → Parser (List Node)
  | 0 => failure
  | fuel + 1 => do
    skipFiller
    if ← accept "]" then return []
    else
      let v ← item
      skipFiller
      if ← accept "," then return v :: (← items item fuel)
      else
        expect "]"
        return [v]

/-- A key and its value, given how a value is read. -/
def pair (item : Parser Node) : Parser (List String × Node) := do
  let k ← key
  expect "="
  skipBlank
  return (k, ← item)

/-- The fields of an inline table up to its end; there is at least one. -/
def inlineFields (item : Parser Node) : Nat → Fields → Parser Fields
  | 0, _ => failure
  | fuel + 1, fields => do
    skipBlank
    let (k, v) ← pair item
    match addValue v k fields with
    | none => failure
    | some fields' =>
      skipBlank
      if ← accept "," then inlineFields item fuel fields'
      else
        expect "\x7d"
        return fields'

/-- A value without parts. -/
def simpleValue : Parser Node := do
  match ← anyString? with
  | some s => return .value (.text s)
  | none => scalar

/-- A value in which arrays and inline tables are nested at most `depth` deep. -/
def valueWithin : Nat → Parser Node
  | 0 => simpleValue
  | depth + 1 => do
    if ← accept "[" then return .array (← items (valueWithin depth) ((← get).length + 1))
    else if ← accept "\x7b" then
      skipBlank
      if ← accept "\x7d" then return .table .inBraces []
      else return .table .inBraces (← inlineFields (valueWithin depth) ((← get).length + 1) [])
    else simpleValue

/-- A value. -/
def value : Parser Node := valueWithin depthLimit

/-! ## Documents -/

/-- The rest of a document, given the path of the table that is open and the fields so far. -/
def lines : Nat → List String → Fields → Parser Fields
  | 0, _, _ => failure
  | fuel + 1, path, fields => do
    skipBlank
    match ← peek with
    | none => return fields
    | some '#' | some '\n' | some '\r' =>
      lineEnd
      lines fuel path fields
    | some '[' =>
      let isRow ← accept "[["
      if !isRow then expect "["
      skipBlank
      let k ← key
      expect (if isRow then "]]" else "]")
      lineEnd
      let last := k.getLast?.getD ""
      let change := if isRow then openRow last else openTable last
      match atTable change k.dropLast fields with
      | some fields' => lines fuel k fields'
      | none => failure
    | some _ =>
      let (k, v) ← pair value
      lineEnd
      match atTable (addValue v k) path fields with
      | some fields' => lines fuel path fields'
      | none => failure

/-- The settings of a document, or `none` if it is malformed. A byte order mark in front of it does not count. -/
def parse? (document : String) : Option (List (String × Setting)) := do
  let cs := if document.startsWith "\ufeff" then document.toList.drop 1 else document.toList
  let (fields, _) ← (lines (cs.length + 2) [] []).run cs
  match ← tableSetting? fields with
  | .table settings => some settings
  | _ => none

end SeriesBlock.Toml
