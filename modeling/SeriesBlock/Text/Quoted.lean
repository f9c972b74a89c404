import SeriesBlock.Text.Hex
import SeriesBlock.Text.Hidden

/-!
# Quoted text

Text shown inside double quotes: quotes and backslashes take a backslash, the common control characters have
names, and any other character that does not show is written by its number.
-/

set_option autoImplicit false

namespace SeriesBlock.Text

/-- One character as it stands inside quotes. -/
def quotedChar (c : Char) : String :=
  if c = '"' then "\\\""
  else if c = '\\' then "\\\\"
  else if c = '\t' then "\\t"
  else if c = '\r' then "\\r"
  else if c = '\n' then "\\n"
  else if c.toNat = 0 then "\\0"
  else if isHidden c then "\\u\x7b" ++ hexDigits c.toNat ++ "\x7d"
  else String.singleton c

/-- A text in double quotes. -/
def quoted (s : String) : String :=
  "\"" ++ String.join (s.toList.map quotedChar) ++ "\""

end SeriesBlock.Text
