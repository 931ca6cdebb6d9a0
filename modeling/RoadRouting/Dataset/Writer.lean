import RoadRouting.Dataset.Catalog
import RoadRouting.Grid.Locate

/-!
# Writing datasets

A network is laid out by cells: a junction goes to the cell that contains it, a road to the cell of the
junction it begins at. Each such cell gets a table of junctions and one of roads, and the manifest
lists the cells.
-/

namespace RoadRouting.Dataset
set_option autoImplicit false
open Store (Path Disk)
open Grid (Cell CellSet Resolution)

/-- Writes a table as the file of a cell. -/
def writeTable (disk : Disk) (dir : Path) (cell : Cell) (t : Table) : Except Fault Unit × Disk :=
  match disk.makeDirectories dir with
  | (false, disk) => (.error .inaccessible, disk)
  | (true, disk) => match disk.write? (dir.child (fileName cell)) (.table t) with
    | none => (.error .inaccessible, disk)
    | some disk => (.ok (), disk)

/-- Writes the junctions of a cell. -/
def writeJunctions (disk : Disk) (root : Path) (r : Resolution) (cell : Cell)
    (js : List (Junction Point)) : Except Fault Unit × Disk :=
  writeTable disk (junctionDirectory root r) cell (junctionTable js)

/-- Writes the roads of a cell. -/
def writeRoads (disk : Disk) (root : Path) (r : Resolution) (cell : Cell)
    (rs : List (Road Float)) : Except Fault Unit × Disk :=
  writeTable disk (roadDirectory root r) cell (roadTable rs)

/-- Writes a manifest that names the given cells. -/
def writeManifest (disk : Disk) (root : Path) (r : Resolution) (cells : List Cell) :
    Except Fault Unit × Disk :=
  match disk.makeDirectories root with
  | (false, disk) => (.error .inaccessible, disk)
  | (true, disk) => match disk.write? (root.child manifestName) (.json (Manifest.toJson r cells)) with
    | none => (.error .inaccessible, disk)
    | some disk => (.ok (), disk)

/-- How much was written. -/
structure Summary where
  partitions : Nat
  junctions : Nat
  roads : Nat
  deriving DecidableEq, Repr

/-- Each junction with the cell that contains it. -/
def locate (r : Resolution) (js : List (Junction Point)) :
    Except Fault (List (Cell × Junction Point)) :=
  js.mapM fun j => match Cell.containing j.position r with
    | some cell => .ok (cell, j)
    | none => .error (.coordinate j)

/-- The cell of each junction; the last one listed counts. -/
def cellTable (js : List (Cell × Junction Point)) : Std.HashMap Int64 Cell :=
  js.foldl (fun m p => m.insert p.2.id p.1) ∅

/-- Each road with the cell of the junction it begins at. -/
def assign (cells : Std.HashMap Int64 Cell) (rs : List (Road Float)) :
    Except Fault (List (Cell × Road Float)) :=
  rs.mapM fun r => match cells[r.source]? with
    | some cell => .ok (cell, r)
    | none => .error (.unknownSource r.source r.target)

/-- What belongs to a cell, in order. -/
def within {β : Type} (cell : Cell) (items : List (Cell × β)) : List β :=
  items.filterMap fun p => if p.1 = cell then some p.2 else none

/-- The cells that occur, in ascending order. -/
def cellsOf {β : Type} (items : List (Cell × β)) : List Cell :=
  (items.foldl (fun (s : CellSet) p => s.insert p.1) ∅).toList

/-- Writes the files of the cells one after the other. -/
def writeCells (root : Path) (r : Resolution) (js : List (Cell × Junction Point))
    (rs : List (Cell × Road Float)) : List Cell → Disk → Except Fault Unit × Disk
  | [], disk => (.ok (), disk)
  | cell :: rest, disk =>
    match writeJunctions disk root r cell (within cell js) with
    | (.error f, disk) => (.error f, disk)
    | (.ok (), disk) => match writeRoads disk root r cell (within cell rs) with
      | (.error f, disk) => (.error f, disk)
      | (.ok (), disk) => writeCells root r js rs rest disk

/-- Where the junctions and roads of a network go, unless one of them has no cell. -/
def layOut (r : Resolution) (js : List (Junction Point)) (rs : List (Road Float)) :
    Except Fault (List (Cell × Junction Point) × List (Cell × Road Float)) := do
  let js ← locate r js
  return (js, ← assign (cellTable js) rs)

/-- Writes a network as a dataset. Nothing is written when a junction or a road has no cell. -/
def writeNetwork (disk : Disk) (root : Path) (r : Resolution) (js : List (Junction Point))
    (rs : List (Road Float)) : Except Fault Summary × Disk :=
  match layOut r js rs with
  | .error f => (.error f, disk)
  | .ok (placed, roads) =>
    match disk.makeDirectories (junctionDirectory root r) with
    | (false, disk) => (.error .inaccessible, disk)
    | (true, disk) => match disk.makeDirectories (roadDirectory root r) with
      | (false, disk) => (.error .inaccessible, disk)
      | (true, disk) =>
        let cells := cellsOf placed
        match writeCells root r placed roads cells disk with
        | (.error f, disk) => (.error f, disk)
        | (.ok (), disk) => match writeManifest disk root r cells with
          | (.error f, disk) => (.error f, disk)
          | (.ok (), disk) => (.ok ⟨cells.length, js.length, rs.length⟩, disk)

end RoadRouting.Dataset
