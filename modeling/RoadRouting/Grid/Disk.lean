import RoadRouting.Grid.CellSet
import RoadRouting.Grid.Place

/-!
# Neighbours and disks

The neighbours of a cell lie one lattice step from its centre; a pentagon has one in each of the five
faces that meet there. `grow` spreads a set of cells by a number of steps, and a disk is what a single
cell spreads to.
-/

namespace RoadRouting.Grid
set_option autoImplicit false

/-- Where a pentagon lies on the faces that meet in it. -/
def BaseCell.corners (b : BaseCell) : List Place :=
  (List.finRange 20).flatMap fun face =>
    Grid.corners.filterMap fun point =>
      if (baseCellAt face point).1 = b then some ⟨face, point⟩ else none

/-- The place, given at resolution zero, on the lattice of a resolution. -/
def Place.magnified (p : Place) (r : Resolution) : Place :=
  let point := p.point.scale (Int.pow 7 (r.val / 2))
  ⟨p.face, if isOdd r.val then point.finer true else point⟩

/-- The six places one step away. -/
def Place.around (p : Place) : List Place :=
  Digit.outward.map fun d => { p with point := p.point + d.step }

namespace Cell

/-- The cells that touch a cell: five around a pentagon, six around any other. -/
def neighbours (c : Cell) : List Cell :=
  let r := c.resolution
  let a := Address.ofCell c
  if a.base.isPentagon && a.leading.val = 0 then
    let around := a.base.corners.flatMap fun corner => (corner.magnified r).around
    (around.filter fun p => !(p.refined r.val).isBeyond (unitOf r.val)).map (.ofPlace · r)
  else c.place.around.map fun p => .ofPlace (p.crossedOnce r.val) r

end Cell

/-- What has been reached, and the cells reached by the last step. -/
structure Wave where
  reached : CellSet
  front : List Cell

namespace Wave

/-- Adds a cell to the wave unless it has been reached. -/
def visit (w : Wave) (c : Cell) : Wave :=
  if w.reached.contains c then w else ⟨w.reached.insert c, c :: w.front⟩

/-- The wave that starts at the given cells. -/
def start (seeds : List Cell) : Wave := seeds.foldl visit ⟨∅, []⟩

/-- One step outwards: the neighbours of the front. -/
def advance (w : Wave) : Wave :=
  w.front.foldl (fun v c => c.neighbours.foldl visit v) ⟨w.reached, []⟩

/-- `k` steps outwards. -/
def advanced (w : Wave) : Nat → Wave
  | 0 => w
  | k + 1 => w.advance.advanced k

end Wave

/-- The cells at most `k` steps from one of the seeds. -/
def grow (k : Nat) (seeds : List Cell) : CellSet := ((Wave.start seeds).advanced k).reached

/-- The cells at most `k` steps from a cell. -/
def Cell.disk (c : Cell) (k : Nat) : CellSet := grow k [c]

end RoadRouting.Grid
