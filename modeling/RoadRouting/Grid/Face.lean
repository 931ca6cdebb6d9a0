import RoadRouting.Grid.BaseCell

/-!
# Places on faces

A lattice point is given by a face and coordinates along that face's axes. Where a point lies beyond
an edge of its face, `Place.cross` gives the same point in the axes of the neighbouring face.
-/

namespace RoadRouting.Grid
set_option autoImplicit false

/-- An edge of a face, named for the two axes between which one looks at it. -/
inductive Side where
  | ij
  | ki
  | jk
  deriving DecidableEq, Repr

/-- The face across an edge, the place of this face's origin in its axes at resolution zero, and the
sixths of a turn between the axes. -/
structure Crossing where
  face : Face
  shift : Hex
  turns : Nat

/-- The face in a row of five; columns count around. -/
def Face.inRow (row : Fin 4) (column : Nat) : Face :=
  ⟨5 * row.val + column % 5, by have := row.isLt; omega⟩

/-- What lies across an edge. The faces form four rows of five: a cap around either pole and two
interlocking rows between them. -/
def Face.crossing (f : Face) (side : Side) : Crossing :=
  let column := f.val % 5
  match f.val / 5, side with
  | 0, .ij => ⟨.inRow 0 (column + 4), .ofAxes 2 0 2, 1⟩
  | 0, .ki => ⟨.inRow 0 (column + 1), .ofAxes 2 2 0, 5⟩
  | 0, .jk => ⟨.inRow 1 column, .ofAxes 0 2 2, 3⟩
  | 1, .ij => ⟨.inRow 2 column, .ofAxes 2 2 0, 3⟩
  | 1, .ki => ⟨.inRow 2 (column + 4), .ofAxes 2 0 2, 3⟩
  | 1, .jk => ⟨.inRow 0 column, .ofAxes 0 2 2, 3⟩
  | 2, .ij => ⟨.inRow 1 column, .ofAxes 2 2 0, 3⟩
  | 2, .ki => ⟨.inRow 1 (column + 1), .ofAxes 2 0 2, 3⟩
  | 2, .jk => ⟨.inRow 3 column, .ofAxes 0 2 2, 3⟩
  | _, .ij => ⟨.inRow 3 (column + 1), .ofAxes 2 0 2, 1⟩
  | _, .ki => ⟨.inRow 3 (column + 4), .ofAxes 2 2 0, 5⟩
  | _, .jk => ⟨.inRow 2 column, .ofAxes 0 2 2, 3⟩

/-- A lattice point in the axes of a face. -/
structure Place where
  face : Face
  point : Hex

/-- The edge in whose direction a point lies. -/
def Hex.side (a : Hex) : Side :=
  if a.least < 0 then (if a.least < a.j then .jk else .ki) else .ij

namespace Place

/-- Whether the point lies beyond an edge, where `unit` is the length of a step of resolution zero. -/
def isBeyond (p : Place) (unit : Int) : Bool := 2 * unit < p.point.height

/-- The same point in the axes of the face across an edge. -/
def cross (p : Place) (side : Side) (unit : Int) : Place :=
  let c := p.face.crossing side
  ⟨c.face, p.point.turned c.turns + c.shift.scale unit⟩

/-- The same point in the axes of a face on which it lies, if it does not lie on its own. -/
def settle? (p : Place) (unit : Int) : Option Place :=
  if p.isBeyond unit then some (p.cross p.point.side unit) else none

/-- Crosses edges until the point lies on its face, at most as often as faces meet at a vertex. -/
def settled (p : Place) (unit : Int) : Nat → Place
  | 0 => p
  | n + 1 => match p.settle? unit with
    | some q => q.settled unit n
    | none => p

/-- The base cell at a place of resolution zero, on its face or across an edge, with the sixths of a
turn to its own axes. -/
def baseCell (p : Place) : BaseCell × Nat :=
  if p.isBeyond 1 then
    let side := p.point.side
    let q := p.cross side 1
    let (b, turns) := baseCellAt q.face q.point
    (b, turns + (p.face.crossing side).turns)
  else baseCellAt p.face p.point

end Place
end RoadRouting.Grid
