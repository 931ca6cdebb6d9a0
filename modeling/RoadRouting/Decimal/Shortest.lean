import RoadRouting.Decimal.Binary

/-!
# The fewest digits that read back

`shortest m q` is the decimal closest to `m · 2 ^ q` among those with the fewest digits that a
correctly rounding reader takes back to the same float. The reals that round to a float form an
interval around it, whose ends belong to it when the mantissa is even. For 1, 2, … 17 digits the two
neighbours of the value on that decimal grid are tried; seventeen digits always reach the interval.
-/

namespace RoadRouting.Decimal
set_option autoImplicit false

/-- The decimal `digits · 10 ^ exponent`. -/
structure Scientific where
  digits : Nat
  exponent : Int
  deriving Repr, DecidableEq

/-- The reals that round to one float, in quarter steps of its last place: the value is
`value / den`, and the interval runs from `low / den` to `high / den`. -/
structure Neighbourhood where
  low : Nat
  value : Nat
  high : Nat
  den : Nat
  closed : Bool

/-- Below the least mantissa of a binade the floats lie twice as dense. -/
def Neighbourhood.of (m : Nat) (q : Int) : Neighbourhood :=
  let below := if m = 1 <<< 52 ∧ q ≠ -1074 then 1 else 2
  let (unit, den) := scaled 1 (q - 2)
  { low := (4 * m - below) * unit, value := 4 * m * unit, high := (4 * m + 2) * unit, den
    closed := m % 2 = 0 }

/-- Whether `num / den`, of a fraction with this neighbourhood's denominator scaled by `k`, rounds to
the float. -/
def Neighbourhood.holds (n : Neighbourhood) (point scale : Nat) : Bool :=
  if n.closed then n.low * scale ≤ point ∧ point ≤ n.high * scale
  else n.low * scale < point ∧ point < n.high * scale

/-- The place of the leading digit: the value lies in `[10 ^ (place - 1), 10 ^ place)`. -/
def Neighbourhood.place (n : Neighbourhood) : Int :=
  Int.ofNat (Nat.toDigits 10 (n.value * Nat.pow 10 400 / n.den)).length - 400

/-- The nearer of the value's two neighbours on the grid of step `10 ^ e`, if one of them rounds to
the float; of two at the same distance the larger one. -/
def Neighbourhood.onGrid? (n : Neighbourhood) (e : Int) : Option Nat :=
  let (step, scale) := match e with
    | .ofNat k => (Nat.pow 10 k * n.den, 1)
    | .negSucc k => (n.den, Nat.pow 10 (k + 1))
  let value := n.value * scale
  let d := value / step
  let below := n.holds (d * step) scale
  let above := n.holds ((d + 1) * step) scale
  if below && above then
    if value - d * step < (d + 1) * step - value then some d else some (d + 1)
  else if below then some d
  else if above then some (d + 1)
  else none

/-- The same decimal with one zero less at its end, if it has one. -/
def Scientific.tidy (s : Scientific) : Scientific :=
  if s.digits % 10 = 0 then ⟨s.digits / 10, s.exponent + 1⟩ else s

/-- Tries grids of ever more digits; the first one with a point that rounds to the float wins. A point
at the upper end of the decade has a zero too many. -/
def Neighbourhood.search (n : Neighbourhood) (place : Int) : Nat → Nat → Scientific
  | 0, _ => ⟨n.value / n.den, 0⟩
  | tries + 1, digits =>
    let e := place - Int.ofNat digits
    match n.onGrid? e with
    | some d => Scientific.tidy ⟨d, e⟩
    | none => n.search place tries (digits + 1)

/-- The decimal with the fewest digits that reads back as `m · 2 ^ q`, for a positive `m`. -/
def shortest (m : Nat) (q : Int) : Scientific :=
  let n := Neighbourhood.of m q
  n.search n.place 17 1

end RoadRouting.Decimal
