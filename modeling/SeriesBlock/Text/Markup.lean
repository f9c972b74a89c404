/-!
# Text marked up for a terminal

Escape sequences in a text tell a terminal how to show what follows. `strong` and `heading` put such sequences in, and
`plain` takes all of them out, for a reader that is no terminal. It follows the sequences as a terminal does, because
what they hold may look like text.
-/

set_option autoImplicit false

namespace SeriesBlock.Text

/-! ## Marks -/

/-- A text in bold letters. -/
def strong (s : String) : String :=
  "\x1b[1m" ++ s ++ "\x1b[0m"

/-- A text in bold letters with a line under them. -/
def heading (s : String) : String :=
  "\x1b[1m\x1b[4m" ++ s ++ "\x1b[0m"

/-! ## Sequences -/

/-- The kinds of escape sequence that a place in a text may lie in. -/
inductive Sequence where
  /-- None: the place lies in text. -/
  | outside
  /-- One that has only begun. -/
  | escape
  /-- One of a few characters. -/
  | short
  /-- A control sequence. -/
  | control
  /-- A command to the operating system. -/
  | command
  /-- A message to a device, at its beginning. -/
  | device
  /-- A message to a device, among its numbers. -/
  | deviceNumbers
  /-- A message to a device, past its numbers. -/
  | deviceName
  /-- The contents of a message. -/
  | message
deriving DecidableEq, Repr

/-- Whether a character lies in a range of code points. -/
def isBetween (low high : Nat) (c : Char) : Bool :=
  low ≤ c.toNat && c.toNat ≤ high

/-- Whether a character, as it is stored, holds the byte that ends a message. -/
def endsMessage (c : Char) : Bool :=
  (String.utf8EncodeChar c).contains 0x9c

namespace Sequence

/-- The sequence that the place behind a character lies in. An escape character begins a new sequence anywhere, and
two control characters break one off. -/
def next (s : Sequence) (c : Char) : Sequence :=
  if c = '\x1b' then escape
  else if c = '\x18' || c = '\x1a' then outside
  else
    match s with
    | outside => outside
    | escape =>
      if isBetween 0x20 0x2f c then short
      else if c = '[' then control
      else if c = ']' then command
      else if c = 'P' then device
      else if c = 'X' || c = '^' || c = '_' then message
      else if isBetween 0x30 0x7e c then outside
      else escape
    | short => if isBetween 0x30 0x7e c then outside else short
    | control => if isBetween 0x40 0x7e c then outside else control
    | command => if c = '\x07' then outside else command
    | device =>
      if isBetween 0x20 0x2f c then deviceName
      else if isBetween 0x30 0x3f c then deviceNumbers
      else if isBetween 0x40 0x7e c then message
      else device
    | deviceNumbers =>
      if isBetween 0x20 0x2f c then deviceName
      else if isBetween 0x3c 0x7e c then message
      else deviceNumbers
    | deviceName => if isBetween 0x30 0x7e c then message else deviceName
    | message => if endsMessage c then outside else message

/-- Whether a character shows: in text all but control characters, and line ends and the like also within those
sequences that are not messages. -/
def shows (s : Sequence) (c : Char) : Bool :=
  match s with
  | outside => isBlank c || (0x20 ≤ c.toNat && c ≠ '\x7f')
  | escape | short | control => isBlank c
  | _ => false
where
  /-- The control characters that move on in a line or to another. -/
  isBlank (c : Char) : Bool :=
    c = '\t' || c = '\n' || c = '\x0c' || c = '\r'

end Sequence

/-! ## Plain text -/

/-- What shows of a text whose beginning lies in a sequence. Behind a character that shows all is text, up to the next
one that does not; a sequence that a line end came into goes on there, unless a character beyond ASCII has ended it. -/
def plainFrom : Sequence → Bool → List Char → List Char
  | _, _, [] => []
  | s, shown, c :: cs =>
    if (if shown then Sequence.outside else s).shows c then
      c :: plainFrom (if c.toNat < 0x80 then s else .outside) true cs
    else plainFrom (s.next c) false cs

/-- A text without its escape sequences and control characters. -/
def plain (s : String) : String :=
  String.ofList (plainFrom .outside false s.toList)

end SeriesBlock.Text
