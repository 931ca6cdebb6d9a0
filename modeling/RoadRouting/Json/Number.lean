/-!
# Numbers of a JSON document

A number is kept as it is written. It is an integer when it has neither a fraction nor an exponent;
any number can be taken as a float. The conversion keeps the leading digits that fit in 64 bits and
scales them by powers of ten up to `10 ^ 308`, rounding at each step.
-/

namespace RoadRouting.Json
set_option autoImplicit false

/-- The exponent of a number: its sign and its digits. -/
structure Exponent where
  negative : Bool
  digits : List Nat
  deriving Repr, DecidableEq

/-- A number as written. `fraction` is absent when there is no point. -/
structure Number where
  negative : Bool
  whole : List Nat
  fraction : Option (List Nat)
  exponent : Option Exponent
  deriving Repr, DecidableEq

/-- The number whose decimal digits are given. -/
def ofDigits (ds : List Nat) : Nat := ds.foldl (fun n d => 10 * n + d) 0

/-- The integer `n` as a JSON number. -/
def Number.ofNat (n : Nat) : Number :=
  { negative := false, whole := (Nat.toDigits 10 n).map fun c => c.toNat - '0'.toNat
    fraction := none, exponent := none }

/-- Whether the number is written as an integer. -/
def Number.isInteger (n : Number) : Bool := n.fraction.isNone && n.exponent.isNone

/-- The unsigned integer below `bound` that the number denotes. A minus sign is refused, even in front
of zero. -/
def Number.toNat? (n : Number) (bound : Nat) : Option Nat :=
  let v := ofDigits n.whole
  if n.isInteger && !n.negative && v < bound then some v else none

/-- The digits that fit in 64 bits, and how many were left over. -/
def takeSignificant (start : Nat) : List Nat → Nat × Nat
  | [] => (start, 0)
  | d :: ds =>
    if 10 * start + d < 1 <<< 64 then takeSignificant (10 * start + d) ds
    else (start, ds.length + 1)

/-- The greatest power of ten that is a float. -/
def maxPower : Nat := 308

/-- `f / 10 ^ k` by steps of at most `10 ^ 308`. -/
def shrink (f : Float) (k : Nat) : Float :=
  if _h : maxPower < k then
    if f == 0.0 then f else shrink (f / Float.ofScientific 1 false maxPower) (k - maxPower)
  else f / Float.ofScientific 1 false k
termination_by k
decreasing_by
  have : 0 < maxPower := by decide
  omega

/-- `f · 10 ^ e` by steps of at most `10 ^ 308`, or nothing when it overflows. -/
def scaleByTen (f : Float) (e : Int) : Option Float :=
  match e with
  | .ofNat k =>
    if maxPower < k then (if f == 0.0 then some f else none)
    else
      let r := f * Float.ofScientific 1 false k
      if r.isInf then none else some r
  | .negSucc k => some (shrink f (k + 1))

/-- The float that a number denotes, or nothing when it is out of range. -/
def Number.toFloat? (n : Number) : Option Float :=
  let (whole, dropped) := takeSignificant 0 n.whole
  let (significand, kept) := match n.fraction with
    | none => (whole, 0)
    | some ds =>
      let (s, rest) := takeSignificant whole ds
      (s, ds.length - rest)
  let written := Int.ofNat dropped - Int.ofNat kept
  let magnitude := match n.exponent with
    | none => scaleByTen (Float.ofNat significand) written
    | some e =>
      let k := ofDigits e.digits
      if 1 <<< 31 ≤ k then
        if significand ≠ 0 ∧ !e.negative then none else some 0.0
      else
        scaleByTen (Float.ofNat significand) (if e.negative then written - k else written + k)
  magnitude.map fun f => if n.negative then -f else f

end RoadRouting.Json
