import RoadRouting.Json.Basic
import RoadRouting.Text.Hex

/-!
# Reading JSON text

`Json.read?` takes exactly the JSON grammar: blanks are space, tab, line feed and carriage return, no
comments, no trailing commas, no leading zeros, no raw control characters in a string, and nothing but
blanks after the document. Fuel bounds the recursion by the length of the text, since every call
consumes a character.
-/

namespace RoadRouting.Json
set_option autoImplicit false

/-- Blanks between tokens. -/
def isSpace (c : Char) : Bool := c = ' ' || c = '\n' || c = '\t' || c = '\r'

/-- Drops the blanks in front. -/
def skip (cs : List Char) : List Char := cs.dropWhile isSpace

/-- The run of digits in front, and the rest. -/
def takeDigits (cs : List Char) : List Nat × List Char :=
  ((cs.takeWhile Char.isDigit).map fun c => c.toNat - '0'.toNat, cs.dropWhile Char.isDigit)

/-- The exponent part of a number, if there is one. -/
def takeExponent (cs : List Char) : Option (Option Exponent × List Char) :=
  match cs with
  | c :: rest =>
    if c = 'e' || c = 'E' then
      let (negative, rest) := match rest with
        | '-' :: more => (true, more)
        | '+' :: more => (false, more)
        | _ => (false, rest)
      let (digits, rest) := takeDigits rest
      if digits.isEmpty then none else some (some { negative, digits }, rest)
    else some (none, cs)
  | [] => some (none, [])

/-- The fraction of a number, if there is one. -/
def takeFraction (cs : List Char) : Option (Option (List Nat) × List Char) :=
  match cs with
  | '.' :: rest =>
    let (digits, rest) := takeDigits rest
    if digits.isEmpty then none else some (some digits, rest)
  | _ => some (none, cs)

/-- A number: a zero or digits without a leading zero, then a fraction and an exponent if present. -/
def takeNumber (cs : List Char) : Option (Number × List Char) := do
  let (negative, cs) := match cs with
    | '-' :: rest => (true, rest)
    | _ => (false, cs)
  let (whole, cs) := takeDigits cs
  guard (whole = [0] || (whole.head?.getD 0 ≠ 0))
  let (fraction, cs) ← takeFraction cs
  let (exponent, cs) ← takeExponent cs
  return ({ negative, whole, fraction, exponent }, cs)

/-- Four hexadecimal digits. -/
def takeHex4 : List Char → Option (Nat × List Char)
  | a :: b :: c :: d :: rest => (Text.hexDigits? [a, b, c, d]).map (·, rest)
  | _ => none

/-- One unit of a string's content: a character, or a lone half of a surrogate pair. -/
inductive Piece where
  | char (c : Char)
  | lone
  deriving DecidableEq

/-- What follows the letter `u` of an escape. A first half takes the second half with it when the next
escape is one. -/
def takeUnicode (cs : List Char) : Option (Piece × List Char) := do
  let (n, rest) ← takeHex4 cs
  if 0xd800 ≤ n ∧ n < 0xdc00 then
    match rest with
    | '\\' :: 'u' :: more => do
      let (m, after) ← takeHex4 more
      if 0xdc00 ≤ m ∧ m < 0xe000 then
        return (.char (Char.ofNat (0x10000 + (n - 0xd800) * 0x400 + (m - 0xdc00))), after)
      else return (.lone, rest)
    | _ => return (.lone, rest)
  else if 0xdc00 ≤ n ∧ n < 0xe000 then return (.lone, rest)
  else return (.char (Char.ofNat n), rest)

/-- What follows a backslash. -/
def takeEscape : List Char → Option (Piece × List Char)
  | '"' :: rest => some (.char '"', rest)
  | '\\' :: rest => some (.char '\\', rest)
  | '/' :: rest => some (.char '/', rest)
  | 'b' :: rest => some (.char '\x08', rest)
  | 'f' :: rest => some (.char '\x0c', rest)
  | 'n' :: rest => some (.char '\n', rest)
  | 'r' :: rest => some (.char '\r', rest)
  | 't' :: rest => some (.char '\t', rest)
  | 'u' :: rest => takeUnicode rest
  | _ => none

/-- The content of a string up to its closing quote, in reverse. -/
def takePieces : Nat → List Piece → List Char → Option (List Piece × List Char)
  | 0, _, _ => none
  | fuel + 1, acc, cs =>
    match cs with
    | [] => none
    | '"' :: rest => some (acc, rest)
    | '\\' :: rest => do
      let (p, rest) ← takeEscape rest
      takePieces fuel (p :: acc) rest
    | c :: rest => if c.toNat < 0x20 then none else takePieces fuel (.char c :: acc) rest

/-- The characters of the pieces, given in reverse, unless one of them is a lone half. -/
def content (reversed : List Piece) : Option String :=
  (reversed.foldl
    (fun acc p => match acc, p with
      | some cs, .char c => some (c :: cs)
      | _, _ => none)
    (some [])).map String.ofList

/-- The rest of a string whose opening quote has been read. -/
def takeString (cs : List Char) : Option (Option String × List Char) := do
  let (pieces, rest) ← takePieces (cs.length + 1) [] cs
  return (content pieces, rest)

/-- The text after `word`, if it starts with it. -/
def takeWord (word cs : List Char) : Option (List Char) :=
  if word.isPrefixOf cs then some (cs.drop word.length) else none

mutual
/-- A value, with blanks allowed in front of it. -/
def takeValue : Nat → List Char → Option (Json × List Char)
  | 0, _ => none
  | fuel + 1, cs =>
    match skip cs with
    | 'n' :: rest => (takeWord ['u', 'l', 'l'] rest).map (.null, ·)
    | 't' :: rest => (takeWord ['r', 'u', 'e'] rest).map (.bool true, ·)
    | 'f' :: rest => (takeWord ['a', 'l', 's', 'e'] rest).map (.bool false, ·)
    | '"' :: rest => (takeString rest).map fun (s, rest) => (.text s, rest)
    | '[' :: rest =>
      match skip rest with
      | ']' :: rest => some (.array [], rest)
      | _ => (takeItems fuel [] rest).map fun (items, rest) => (.array items, rest)
    | '\x7b' :: rest =>
      match skip rest with
      | '\x7d' :: rest => some (.object [], rest)
      | _ => (takeMembers fuel [] rest).map fun (members, rest) => (.object members, rest)
    | cs => (takeNumber cs).map fun (n, rest) => (.number n, rest)
/-- The items of an array up to its closing bracket. -/
def takeItems : Nat → List Json → List Char → Option (List Json × List Char)
  | 0, _, _ => none
  | fuel + 1, acc, cs => do
    let (j, rest) ← takeValue fuel cs
    match skip rest with
    | ',' :: rest => takeItems fuel (j :: acc) rest
    | ']' :: rest => return ((j :: acc).reverse, rest)
    | _ => none
/-- The members of an object up to its closing brace. -/
def takeMembers : Nat → List (Option String × Json) → List Char →
    Option (List (Option String × Json) × List Char)
  | 0, _, _ => none
  | fuel + 1, acc, cs =>
    match skip cs with
    | '"' :: rest => do
      let (name, rest) ← takeString rest
      match skip rest with
      | ':' :: rest =>
        let (j, rest) ← takeValue fuel rest
        match skip rest with
        | ',' :: rest => takeMembers fuel ((name, j) :: acc) rest
        | '\x7d' :: rest => return (((name, j) :: acc).reverse, rest)
        | _ => none
      | _ => none
    | _ => none
end

/-- Reads a whole text as one document. -/
def read? (s : String) : Option Json := do
  let cs := s.toList
  let (j, rest) ← takeValue (2 * cs.length + 2) cs
  guard (skip rest).isEmpty
  return j

end RoadRouting.Json
