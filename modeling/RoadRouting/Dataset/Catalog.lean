import RoadRouting.Dataset.Layout
import RoadRouting.Grid.CellSet
import RoadRouting.Json.Record

/-!
# Catalogs

The catalog of a dataset lists its partitions: those that the manifest names, or those whose junction
tables are found when the manifest names none. `Catalog.read` reads the partition of a cell.
-/

namespace RoadRouting.Dataset
set_option autoImplicit false
open Store (Path Disk Document)
open Grid (Cell CellSet Resolution)

/-- A manifest: the resolution of the cells and, unless the files are to be looked at, their keys. -/
structure Manifest where
  resolution : Nat
  keys : Option (List String)

namespace Manifest

/-- The names of the fields in a document, in their order. -/
def fieldNames : List (List String) := [["resolution_level", "h3_level"], ["partitions"]]

/-- The manifest that a document describes. -/
def ofJson? (j : Json) : Option Manifest := do
  let fields ← j.fields? fieldNames
  let resolution ← Json.asNat? 256 (← fields.getD 0 none)
  let keys ← Json.orDefault (Json.asOption? (Json.asList? Json.asString?)) none (fields.getD 1 none)
  return { resolution, keys }

/-- The document of a manifest that names the given cells. -/
def toJson (r : Resolution) (cells : List Cell) : Json :=
  .object [(some "resolution_level", .nat r.val),
    (some "partitions", .array (cells.map fun c => .string c.text))]

end Manifest

/-- The partitions of a dataset. -/
structure Catalog where
  root : Path
  resolution : Resolution
  cells : CellSet

namespace Catalog

/-- Adds the cell that a key names. -/
def addKey (c : Catalog) (key : String) : Except Fault Catalog :=
  match readKey key with
  | .error f => .error (.key f)
  | .ok cell =>
    if cell.resolution = c.resolution then .ok { c with cells := c.cells.insert cell }
    else .error (.key (.resolution cell c.resolution.val))

/-- The file of a cell's junctions. -/
def junctionFile (c : Catalog) (cell : Cell) : Path :=
  (junctionDirectory c.root c.resolution).child (fileName cell)

/-- The file of a cell's roads. -/
def roadFile (c : Catalog) (cell : Cell) : Path :=
  (roadDirectory c.root c.resolution).child (fileName cell)

/-- The keys in the names of the junction tables. -/
def scan (disk : Disk) (root : Path) (r : Resolution) : List String :=
  (disk.names (junctionDirectory root r)).filterMap cellPart?

/-- The manifest of a dataset. -/
def readManifest (disk : Disk) (root : Path) : Except Fault Manifest :=
  let file := root.child manifestName
  match disk.read? file with
  | none => .error (.manifestMissing file)
  | some doc => match doc.json?.bind Manifest.ofJson? with
    | none => .error .malformedManifest
    | some m => .ok m

/-- The catalog of the dataset in a directory. -/
def load (disk : Disk) (root : Path) : Except Fault Catalog := do
  let manifest ← readManifest disk root
  if h : manifest.resolution < 16 then
    let resolution : Resolution := ⟨manifest.resolution, h⟩
    let keys := manifest.keys.getD (scan disk root resolution)
    keys.foldlM addKey ⟨root, resolution, ∅⟩
  else .error (.resolution manifest.resolution)

/-- The catalog of some cells. -/
def ofCells (root : Path) (resolution : Resolution) (cells : List Cell) : Catalog :=
  ⟨root, resolution, cells.foldl (·.insert ·) ∅⟩

end Catalog

/-- How many rows are read at a time. -/
def batchSize : Nat := 1024

/-- What the table in a file holds. -/
def rowsIn {β : Type} (disk : Disk) (read : Table → Except Misfit (List β)) (file : Path) :
    Except Fault (List β) :=
  match disk.item? file with
  | none => .error .inaccessible
  | some (.file (.table t)) =>
    match read t with
    | .ok rows => .ok rows
    | .error misfit => .error (.column file misfit)
  | some _ => .error .noTable

/-- What the table in a file holds; nothing when there is no file. -/
def rowsIfThere {β : Type} (disk : Disk) (read : Table → Except Misfit (List β)) (file : Path) :
    Except Fault (List β) :=
  if disk.isFile file then rowsIn disk read file else .ok []

/-- The partition of a cell. -/
def Catalog.read (c : Catalog) (disk : Disk) (cell : Cell) : Except Fault (Partition Float Point) := do
  let junctions ← rowsIfThere disk (readJunctions batchSize) (c.junctionFile cell)
  let roads ← rowsIfThere disk (readRoads batchSize) (c.roadFile cell)
  return { cell, junctions, roads }

end RoadRouting.Dataset
