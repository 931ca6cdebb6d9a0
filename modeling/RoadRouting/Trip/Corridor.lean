import RoadRouting.Dataset.Catalog
import RoadRouting.Grid.Disk
import RoadRouting.Grid.Locate

/-!
# Corridors

The partitions that a route between two points is likely to touch: the disks around samples of the
straight line between them, and the neighbours of both ends, as far as the catalog has them.
-/

namespace RoadRouting.Trip
set_option autoImplicit false
open Dataset (Catalog)
open Grid (Cell CellSet Resolution)

/-- How far apart cells are, in kilometres of width. -/
def cellSpacing : Float := 3.5

/-- The greatest radius of a disk. -/
def maxRadius : Nat := 20

/-- How many pieces a line is cut into: one for each whole spacing in its length, and at least two. -/
def segmentCount (kilometres spacing : Float) : Nat :=
  -- the conversion drops the fraction
  max (kilometres / spacing).toUInt64.toNat 2

/-- The radius of the disks of a corridor: one for each whole spacing in its width, from one to twenty. -/
def diskRadius (width : Float) : Nat :=
  min (max (width / cellSpacing).toUInt32.toNat 1) maxRadius

/-- The points at which a line is sampled, from end to end. -/
def samples (origin destination : Point) (segments : Nat) : List Point :=
  (List.range (segments + 1)).map fun i =>
    origin.lerp destination (i.toFloat / segments.toFloat)

/-- The cells that contain the points; points off the globe count for nothing. -/
def cellsAround (points : List Point) (r : Resolution) : List Cell :=
  points.filterMap fun p => Cell.containing p r

/-- The cells of a corridor, whether they have partitions or not. -/
def computedCells (origin destination : Point) (width spacing : Float) (r : Resolution) : CellSet :=
  let segments := segmentCount (origin.distance destination / 1000.0) spacing
  let line := cellsAround (samples origin destination segments) r
  let ends := cellsAround [origin, destination] r
  (Grid.grow (diskRadius width) line).insertMany (Grid.grow 1 ends).toList

/-- A corridor: its cells, those of them that have partitions, and the straight distance in metres
between its ends. -/
structure Corridor where
  computed : CellSet
  available : CellSet
  straight : Float

namespace Corridor

/-- The corridor without cells. -/
def empty : Corridor := ⟨∅, ∅, 0.0⟩

/-- The share of the cells that have partitions; all of none. -/
def coverage (c : Corridor) : Float :=
  if c.computed.isEmpty then 1.0 else c.available.size.toFloat / c.computed.size.toFloat

/-- Whether no cell has a partition. -/
def isEmpty (c : Corridor) : Bool := c.available.isEmpty

/-- The corridor between two points; points off the globe have the empty one. -/
def between (catalog : Catalog) (origin destination : Point) (width spacing : Float) : Corridor :=
  if origin.isValid && destination.isValid then
    let computed := computedCells origin destination width spacing catalog.resolution
    ⟨computed, CellSet.restrict computed catalog.cells, origin.distance destination⟩
  else empty

/-- Whether the corridor between two points leaves so much uncovered that a warning is due. -/
def isThin (c : Corridor) (threshold : Float) : Bool := c.coverage < threshold

end Corridor
end RoadRouting.Trip
