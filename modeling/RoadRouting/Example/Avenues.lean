import RoadRouting.Dataset.Rows

/-!
# A network of avenues

A made-up network to try a router on: crossings about two kilometres apart in ten rows and 32 columns.
Rows are avenues and streets in turn, columns are roads of a second class, and along the first row runs
an express lane from west to east with a posted limit.
-/

namespace RoadRouting.Example.Avenues
set_option autoImplicit false
open Dataset (Junction Road)

/-- How many columns there are. -/
def columns : Nat := 32

/-- How many rows there are. -/
def rows : Nat := 10

/-- The first crossing. -/
def origin : Point := ⟨-33.55, -70.90⟩

/-- The distance between crossings in degrees. -/
def spacing : Float := 0.02

/-- How much longer roads are than the straight line. -/
def winding : Float := 1.15

/-- The identifier of a crossing. -/
def crossingId (column row : Nat) : Int64 := Int64.ofNat (row * columns + column + 1)

/-- The position of a crossing. -/
def crossingPosition (column row : Nat) : Point :=
  ⟨origin.lat + spacing * row.toFloat, origin.lon + spacing * column.toFloat⟩

/-- The road between two crossings. -/
def road (source target : Nat × Nat) (className : String) (limit : Option String) (oneWay : Bool) :
    Road Float where
  source := crossingId source.1 source.2
  target := crossingId target.1 target.2
  length :=
    (crossingPosition source.1 source.2).distance (crossingPosition target.1 target.2) * winding
  className
  limit
  oneWay

/-- All crossings, row by row. -/
def junctions : List (Junction Point) :=
  (List.range rows).flatMap fun row => (List.range columns).map fun column =>
    ⟨crossingId column row, crossingPosition column row⟩

/-- The roads along the rows. -/
def rowRoads : List (Road Float) :=
  (List.range rows).flatMap fun row => (List.range (columns - 1)).map fun column =>
    road (column, row) (column + 1, row) (if row % 2 = 0 then "primary" else "residential") none false

/-- The roads along the columns. -/
def columnRoads : List (Road Float) :=
  (List.range columns).flatMap fun column => (List.range (rows - 1)).map fun row =>
    road (column, row) (column, row + 1) "secondary" none false

/-- The express lane, four columns at a time. -/
def expressRoads : List (Road Float) :=
  (List.range ((columns - 4 + 3) / 4)).map fun i =>
    road (4 * i, 0) (4 * i + 4, 0) "motorway" (some "110 km/h") true

/-- All roads. -/
def roads : List (Road Float) := rowRoads ++ columnRoads ++ expressRoads

end RoadRouting.Example.Avenues
