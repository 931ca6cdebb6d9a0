/-!
# Reading a decimal number

`read?` accepts an optional sign, then digits with at most one point and at least one digit, then
optionally `e` or `E` with an optionally signed run of digits; or one of the words `inf`, `infinity`
and `nan` in any letter case. The result is the float nearest to the decimal.
-/

namespace RoadRouting.Decimal
set_option autoImplicit false

/-- The value of a digit. -/
def digitValue (c : Char) : Nat := c.toNat - '0'.toNat

/-- Appends decimal digits to a number. -/
def appendDigits (start : Nat) (ds : List Char) : Nat :=
  ds.foldl (fun n c => 10 * n + digitValue c) start

/-- A decimal number as written: `mantissa · 10 ^ exponent`, negated when `negative`. -/
structure Numeral where
  negative : Bool
  mantissa : Nat
  exponent : Int

/-- The float nearest to the numeral. Numerals that are certain to overflow or to vanish are told by
their magnitude alone, so no huge power of ten is ever formed. -/
def Numeral.toFloat (n : Numeral) : Float :=
  let size := Int.ofNat (Nat.toDigits 10 n.mantissa).length + n.exponent
  let magnitude :=
    if n.mantissa = 0 ∨ size < -400 then 0.0
    else if 400 < size then 1.0 / 0.0
    else match n.exponent with
      | .ofNat k => Float.ofScientific n.mantissa false k
      | .negSucc k => Float.ofScientific n.mantissa true (k + 1)
  if n.negative then -magnitude else magnitude

/-- A sign, if one stands in front, and what follows it. -/
def takeSign : List Char → Bool × List Char
  | '-' :: rest => (true, rest)
  | '+' :: rest => (false, rest)
  | cs => (false, cs)

/-- The exponent part: absent, or `e` with a run of digits that reaches the end. -/
def exponent? : List Char → Option Int
  | [] => some 0
  | c :: rest =>
    if c = 'e' ∨ c = 'E' then
      let (negative, ds) := takeSign rest
      if ds.isEmpty || !ds.all Char.isDigit then none
      else
        let n := Int.ofNat (appendDigits 0 ds)
        some (if negative then -n else n)
    else none

/-- The digits around the point, then the exponent part. -/
def unsigned? (negative : Bool) (cs : List Char) : Option Numeral :=
  let whole := cs.takeWhile Char.isDigit
  let rest := cs.dropWhile Char.isDigit
  let (fraction, tail) := match rest with
    | '.' :: more => (more.takeWhile Char.isDigit, more.dropWhile Char.isDigit)
    | _ => ([], rest)
  if whole.isEmpty && fraction.isEmpty then none
  else do
    let e ← exponent? tail
    return { negative
             mantissa := appendDigits 0 (whole ++ fraction)
             exponent := e - Int.ofNat fraction.length }

/-- The words that name no decimal, in lower case. -/
def word? (cs : List Char) : Option Float :=
  if cs = ['i', 'n', 'f'] ∨ cs = ['i', 'n', 'f', 'i', 'n', 'i', 't', 'y'] then some (1.0 / 0.0)
  else if cs = ['n', 'a', 'n'] then some (0.0 / 0.0)
  else none

/-- Reads a whole text as a number, or refuses it. -/
def read? (cs : List Char) : Option Float :=
  let (negative, body) := takeSign cs
  match word? (body.map Char.toLower) with
  | some x => some (if negative then -x else x)
  | none => (unsigned? negative body).map Numeral.toFloat

end RoadRouting.Decimal
