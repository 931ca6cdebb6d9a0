/-!
# The triangular lattice

Cell centres of one resolution on one face form a triangular lattice. Its points are the integers
`i + j·ω`, where `ω` turns by a third of a circle and `1 + ω + ω² = 0`; so lattice points add and
multiply, a sixth of a turn is a multiplication by `1 + ω`, and the lattice of the next resolution
arises by a multiplication by `2 - ω` or `3 + ω`, both of norm seven.
-/

namespace RoadRouting.Grid
set_option autoImplicit false

/-- The lattice point `i + j·ω`. -/
structure Hex where
  i : Int
  j : Int
  deriving DecidableEq, Repr, Inhabited

namespace Hex

instance : Add Hex := ⟨fun a b => ⟨a.i + b.i, a.j + b.j⟩⟩
instance : Sub Hex := ⟨fun a b => ⟨a.i - b.i, a.j - b.j⟩⟩
instance : Mul Hex := ⟨fun a b => ⟨a.i * b.i - a.j * b.j, a.i * b.j + a.j * b.i - a.j * b.j⟩⟩

/-- The origin. -/
def origin : Hex := ⟨0, 0⟩

/-- The point `n` times as far from the origin. -/
def scale (a : Hex) (n : Int) : Hex := ⟨n * a.i, n * a.j⟩

/-- The point with the coordinates `i`, `j` and `k` along the three axes `1`, `ω` and `ω²`. -/
def ofAxes (i j k : Int) : Hex := ⟨i - k, j - k⟩

/-- The least coordinates along the three axes are `i - least`, `j - least` and `-least`. -/
def least (a : Hex) : Int := min 0 (min a.i a.j)

/-- The sum of the least non-negative coordinates along the three axes. -/
def height (a : Hex) : Int := a.i + a.j - 3 * a.least

/-- A sixth of a turn to the left. -/
def turnLeft (a : Hex) : Hex := a * ⟨1, 1⟩

/-- A sixth of a turn to the right. -/
def turnRight (a : Hex) : Hex := a * ⟨0, -1⟩

/-- `n` sixths of a turn to the left. -/
def turned (a : Hex) : Nat → Hex
  | 0 => a
  | n + 1 => a.turnLeft.turned n

/-- The factor from one resolution's lattice to the next, for an odd and an even next resolution. The
two factors are conjugate and their product is seven. -/
def factor (odd : Bool) : Hex := if odd then ⟨2, -1⟩ else ⟨3, 1⟩

/-- The same point on the lattice of the next resolution. -/
def finer (a : Hex) (odd : Bool) : Hex := a * factor odd

/-- The integer nearest to a seventh of `n`. -/
def seventh (n : Int) : Int := (2 * n + 7) / 14

/-- The point of the previous resolution's lattice that is nearest. -/
def coarser (a : Hex) (odd : Bool) : Hex :=
  let b := a * factor (!odd)
  ⟨seventh b.i, seventh b.j⟩

end Hex

/-- A step from a cell centre to one of its seven children: zero stays at the centre, the others go to
the six neighbours. -/
abbrev Digit := Fin 7

namespace Digit

/-- The lattice step of a digit. -/
def step (d : Digit) : Hex :=
  match d with
  | 0 => .ofAxes 0 0 0
  | 1 => .ofAxes 0 0 1
  | 2 => .ofAxes 0 1 0
  | 3 => .ofAxes 0 1 1
  | 4 => .ofAxes 1 0 0
  | 5 => .ofAxes 1 0 1
  | 6 => .ofAxes 1 1 0

/-- The six digits that leave the centre. -/
def outward : List Digit := [1, 2, 3, 4, 5, 6]

/-- The digit of a lattice step; a longer step counts as none. -/
def ofStep (a : Hex) : Digit := (outward.find? fun d => d.step = a).getD 0

/-- The digit a sixth of a turn to the left. -/
def turnLeft (d : Digit) : Digit :=
  match d with
  | 0 => 0
  | 1 => 5
  | 2 => 3
  | 3 => 1
  | 4 => 6
  | 5 => 4
  | 6 => 2

/-- The digit a sixth of a turn to the right. -/
def turnRight (d : Digit) : Digit :=
  match d with
  | 0 => 0
  | 1 => 3
  | 2 => 6
  | 3 => 2
  | 4 => 5
  | 5 => 1
  | 6 => 4

/-- Turning right undoes turning left. -/
theorem turnRight_turnLeft (d : Digit) : d.turnLeft.turnRight = d := by decide +revert

/-- The step of a turned digit is the turned step. -/
theorem step_turnLeft (d : Digit) : d.turnLeft.step = d.step.turnLeft := by decide +revert

/-- The first digit that leaves the centre, or zero. -/
def leading (ds : List Digit) : Digit := (ds.find? (· ≠ 0)).getD 0

end Digit
end RoadRouting.Grid
