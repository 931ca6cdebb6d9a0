import RoadRouting.Text.Hex
import RoadRouting.Text.Printable

/-!
# Text in quotes

A text is shown between double quotes. A quote and a backslash get a backslash in front, four controls
have short names, and a character that would not be seen is shown by its code point.
-/

namespace RoadRouting.Text
set_option autoImplicit false

/-- How one character is shown between quotes. -/
def escape (c : Char) : String :=
  if c = '\x00' then "\\0"
  else if c = '\t' then "\\t"
  else if c = '\r' then "\\r"
  else if c = '\n' then "\\n"
  else if c = '"' then "\\\""
  else if c = '\\' then "\\\\"
  else if isPlain c then c.toString
  else "\\u\x7b" ++ hex c.toNat ++ "\x7d"

/-- The text between double quotes, with what needs it escaped. -/
def quoted (s : String) : String :=
  "\"" ++ String.join (s.toList.map escape) ++ "\""

end RoadRouting.Text
