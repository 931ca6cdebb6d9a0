import RoadRouting.Decimal.Render
import RoadRouting.Json.Read
import RoadRouting.Text.Hex

/-!
# Writing JSON text

A document is written without blanks. A number is written as it is kept. In a string only the quote,
the backslash and the control characters are escaped; a string without content is written as an empty
one.
-/

namespace RoadRouting.Json
set_option autoImplicit false

/-- The text of a decimal digit. -/
def digitText (d : Nat) : String := (Char.ofNat ('0'.toNat + d)).toString

/-- The text of a run of digits. -/
def digitsText (ds : List Nat) : String := String.join (ds.map digitText)

/-- The text of an exponent. -/
def Exponent.text (e : Exponent) : String :=
  (if e.negative then "e-" else "e") ++ digitsText e.digits

/-- The text of a number. -/
def Number.text (n : Number) : String :=
  (if n.negative then "-" else "") ++ digitsText n.whole ++
    ((n.fraction.map fun ds => "." ++ digitsText ds).getD "") ++ ((n.exponent.map (·.text)).getD "")

/-- A character within a string. -/
def escape (c : Char) : String :=
  if c = '"' then "\\\""
  else if c = '\\' then "\\\\"
  else if c.toNat < 0x20 then "\\u" ++ Text.hexPadded 4 c.toNat
  else c.toString

/-- The text of a string. -/
def stringText (s : String) : String :=
  "\"" ++ s.toList.foldl (fun written c => written ++ escape c) "" ++ "\""

mutual
/-- Writes a document behind what has been written. -/
def write (written : String) : Json → String
  | .null => written ++ "null"
  | .bool b => written ++ (if b then "true" else "false")
  | .number n => written ++ n.text
  | .text content => written ++ stringText (content.getD "")
  | .array items => writeItems (written ++ "[") "" items ++ "]"
  | .object members => writeMembers (written ++ "\x7b") "" members ++ "\x7d"
/-- Writes items, the first one behind `mark` and each further one behind a comma. -/
def writeItems (written mark : String) : List Json → String
  | [] => written
  | j :: rest => writeItems (write (written ++ mark) j) "," rest
/-- Writes members, the first one behind `mark` and each further one behind a comma. -/
def writeMembers (written mark : String) : List (Option String × Json) → String
  | [] => written
  | (name, j) :: rest =>
    writeMembers (write (written ++ mark ++ stringText (name.getD "") ++ ":") j) "," rest
end

/-- A document as text. -/
def compact (j : Json) : String := write "" j

/-- An integer of a document. -/
def int (n : Int) : Json := .number { Number.ofNat n.natAbs with negative := n < 0 }

/-- The digits of a decimal text in front of the point and behind it. -/
def decimalParts (cs : List Char) : List Nat × List Nat :=
  let (whole, rest) := takeDigits cs
  (whole, (takeDigits (rest.drop 1)).1)

/-- A float of a document, positional and always with a fraction. -/
def float (x : Float) : Json :=
  let (whole, fraction) := decimalParts (Decimal.plain x.abs).toList
  .number
    { negative := x.toBits.toNat >>> 63 = 1
      whole
      fraction := some (if fraction.isEmpty then [0] else fraction)
      exponent := none }

end RoadRouting.Json
