import RoadRouting.Decimal.Shortest

/-!
# Numbers as text

Two ways to write a float: with the fewest digits that read back, always positional and never with an
exponent (`plain`), and with a fixed count of decimal places (`fixed`).
-/

namespace RoadRouting.Decimal
set_option autoImplicit false

/-- How the values that are no decimal are spelled. -/
structure Spelling where
  nan : String
  infinity : String

/-- Not-a-number carries no sign; an infinity has a minus sign or none. -/
def spelling : Spelling := ⟨"NaN", "inf"⟩

/-- The sign in front of a number; a negative zero keeps it. -/
def sign (negative : Bool) : String := if negative then "-" else ""

/-- Writes `digits · 10 ^ exponent` without an exponent, and without a point when it is an integer. -/
def Scientific.positional (s : Scientific) : String :=
  let ds := Nat.toDigits 10 s.digits
  match s.exponent with
  | .ofNat k => String.ofList (ds ++ List.replicate k '0')
  | .negSucc k =>
    let places := k + 1
    let padded := List.replicate (places + 1 - ds.length) '0' ++ ds
    let whole := padded.length - places
    String.ofList (padded.take whole ++ '.' :: padded.drop whole)

/-- The fewest digits that read back, written positionally. -/
def plain (x : Float) : String :=
  match Binary.ofFloat x with
  | .nan => spelling.nan
  | .infinite negative => sign negative ++ spelling.infinity
  | .finite negative 0 _ => sign negative ++ "0"
  | .finite negative m q => sign negative ++ (shortest m q).positional

/-- Exactly `places` decimals; the binary value is rounded once, a half to the even neighbour. -/
def fixed (places : Nat) (x : Float) : String :=
  match Binary.ofFloat x with
  | .nan => spelling.nan
  | .infinite negative => sign negative ++ spelling.infinity
  | .finite negative m q =>
    let (num, den) := scaled m q
    let rounded := roundDiv (num * Nat.pow 10 places) den
    let ds := Nat.toDigits 10 rounded
    let padded := List.replicate (places + 1 - ds.length) '0' ++ ds
    let whole := padded.length - places
    let point := if places = 0 then [] else '.' :: padded.drop whole
    sign negative ++ String.ofList (padded.take whole ++ point)

end RoadRouting.Decimal
