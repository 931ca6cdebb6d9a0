import RoadRouting.Dataset.Table
import RoadRouting.Decimal.Render
import RoadRouting.Geo.Point
import RoadRouting.Grid.Cell

/-!
# Rows of a partition

The junctions and roads of a partition, the tables that hold them, and how they are read back. A table
fits when it has the columns with the right types, without empty cells where a value is needed, and
when every length is a finite number that is not negative. Columns that are not needed do not matter.
-/

namespace RoadRouting.Dataset
set_option autoImplicit false

/-- A junction of roads with its position. -/
structure Junction (π : Type) where
  id : Int64
  position : π
  deriving Repr

/-- A road from one junction to another; one that is not one-way is open in both directions. -/
structure Road (α : Type) where
  source : Int64
  target : Int64
  length : α
  className : String
  limit : Option String
  oneWay : Bool
  deriving Repr

/-- What is known of a cell: its junctions and the roads that begin at them. -/
structure Partition (α π : Type) where
  cell : Grid.Cell
  junctions : List (Junction π)
  roads : List (Road α)

/-- Why a column does not fit. -/
inductive ColumnFault where
  | missing
  | type (expected : String) (found : ColumnType)
  | empty
  | length (row : Nat) (value : Float)

/-- The wording of a fault. -/
def ColumnFault.message : ColumnFault → String
  | .missing => "column missing"
  | .type expected found => "expected " ++ expected ++ ", found " ++ found.name
  | .empty => "unexpected nulls"
  | .length row value => "row " ++ toString row ++ " has length " ++ Decimal.plain value

/-- A column that does not fit. -/
structure Misfit where
  column : String
  fault : ColumnFault

/-- The columns of a table of junctions. -/
def junctionColumns : List String := ["id", "lat", "lon"]

/-- The columns of a table of roads. -/
def roadColumns : List String :=
  ["source", "target", "length_m", "classification", "posted_limit", "one_way"]

/-- The values of a column without empty cells. -/
def full {β : Type} (name : String) (cells : List (Option β)) : Except Misfit (List β) :=
  match cells.mapM id with
  | some values => .ok values
  | none => .error ⟨name, .empty⟩

/-- The first column with a name. -/
def column (columns : List Column) (name : String) : Except Misfit Column :=
  match columns.find? fun c => c.name = name with
  | some c => .ok c
  | none => .error ⟨name, .missing⟩

/-- A column of whole numbers. -/
def wholes (columns : List Column) (name : String) : Except Misfit (List Int64) := do
  match ← column columns name with
  | ⟨_, .int64, cells⟩ => full name cells
  | c => .error ⟨name, .type "int64" c.type⟩

/-- A column of floats. -/
def floats (columns : List Column) (name : String) : Except Misfit (List Float) := do
  match ← column columns name with
  | ⟨_, .float64, cells⟩ => full name cells
  | c => .error ⟨name, .type "float64" c.type⟩

/-- A column of texts, in which cells may be empty. -/
def optionalTexts (columns : List Column) (name : String) : Except Misfit (List (Option String)) := do
  match ← column columns name with
  | ⟨_, .utf8, cells⟩ => .ok cells
  | ⟨_, .largeUtf8, cells⟩ => .ok cells
  | c => .error ⟨name, .type "utf8" c.type⟩

/-- A column of texts. An empty cell is found before the type is looked at. -/
def texts (columns : List Column) (name : String) : Except Misfit (List String) := do
  if (← column columns name).hasEmpty then .error ⟨name, .empty⟩
  else full name (← optionalTexts columns name)

/-- A column of flags; an empty cell is a flag that is not set. -/
def flags (columns : List Column) (name : String) : Except Misfit (List Bool) := do
  match ← column columns name with
  | ⟨_, .bool, cells⟩ => .ok (cells.map (·.getD false))
  | c => .error ⟨name, .type "bool" c.type⟩

/-- The junctions of one batch. -/
def junctionsOfBatch (columns : List Column) : Except Misfit (List (Junction Point)) := do
  let ids ← wholes columns "id"
  let lats ← floats columns "lat"
  let lons ← floats columns "lon"
  return List.zipWith (fun id position => ⟨id, position⟩) ids (List.zipWith Point.mk lats lons)

/-- Whether a float can be a length. -/
def isLength (x : Float) : Bool := x.isFinite && 0.0 ≤ x

/-- The first length of a batch that is none, with its row. -/
def badLength? (lengths : List Float) : Option (Nat × Float) :=
  (lengths.zipIdx.find? fun p => !isLength p.1).map fun p => (p.2, p.1)

/-- The roads of one batch. -/
def roadsOfBatch (columns : List Column) : Except Misfit (List (Road Float)) := do
  let sources ← wholes columns "source"
  let targets ← wholes columns "target"
  let lengths ← floats columns "length_m"
  let classes ← texts columns "classification"
  let limits ← optionalTexts columns "posted_limit"
  let oneWays ← flags columns "one_way"
  match badLength? lengths with
  | some (row, value) => .error ⟨"length_m", .length row value⟩
  | none =>
    let ends := sources.zip targets
    let kinds := classes.zip (limits.zip oneWays)
    return (ends.zip (lengths.zip kinds)).map fun ((source, target), length, className, limit, oneWay) =>
      { source, target, length, className, limit, oneWay }

/-- Reads a table batch by batch, after a look whether all columns are there. -/
def readTable {β : Type} (names : List String) (ofBatch : List Column → Except Misfit (List β))
    (batch : Nat) (t : Table) : Except Misfit (List β) := do
  for name in names do
    discard (column t.columns name)
  return (← (t.batches batch).mapM ofBatch).flatten

/-- The junctions that a table holds. -/
def readJunctions : Nat → Table → Except Misfit (List (Junction Point)) :=
  readTable junctionColumns junctionsOfBatch

/-- The roads that a table holds. -/
def readRoads : Nat → Table → Except Misfit (List (Road Float)) :=
  readTable roadColumns roadsOfBatch

/-- The table of some junctions. -/
def junctionTable (js : List (Junction Point)) : Table where
  rows := js.length
  columns :=
    [⟨"id", .int64, js.map fun j => some j.id⟩, ⟨"lat", .float64, js.map fun j => some j.position.lat⟩,
      ⟨"lon", .float64, js.map fun j => some j.position.lon⟩]
  even := by simp [Column.size]

/-- The table of some roads. -/
def roadTable (rs : List (Road Float)) : Table where
  rows := rs.length
  columns :=
    [⟨"source", .int64, rs.map fun r => some r.source⟩,
      ⟨"target", .int64, rs.map fun r => some r.target⟩,
      ⟨"length_m", .float64, rs.map fun r => some r.length⟩,
      ⟨"classification", .utf8, rs.map fun r => some r.className⟩,
      ⟨"posted_limit", .utf8, rs.map fun r => r.limit⟩,
      ⟨"one_way", .bool, rs.map fun r => some r.oneWay⟩]
  even := by simp [Column.size]

end RoadRouting.Dataset
