import RoadRouting.Sampling.Choose
import RoadRouting.Trip.Planner

/-!
# Opening a dataset

A planner is opened with settings that make sense, the catalog of the dataset, and a snap index: the
archived one if it was made from the same dataset in the same way, or else a new one from samples of
the partitions.
-/

namespace RoadRouting.Trip
set_option autoImplicit false
open Dataset (Catalog Junction)
open Grid (Cell)
open Network (Finder)
open Sampling (Generator choose)
open Snap (Entry Header Index Options)
open Store (Path Disk)

/-- The header of an index for a dataset and settings. -/
def expectedHeader (c : Catalog) (s : Settings) : Header where
  version := Snap.currentVersion
  resolution := c.resolution.val
  sampleCap := s.sampleCap
  seed := s.seed.toNat
  partitions := c.cells.size
  fingerprint := (Grid.CellSet.fingerprint c.cells).toNat

/-- How an index answers under the settings. -/
def snapOptions (s : Settings) : Options := ⟨s.candidates, s.memoCapacity, s.decimals⟩

/-- At most `cap` of the junctions of a cell, in order, as entries of an index. The choice depends on
the seed and the cell alone. -/
def sampleJunctions (cap : Nat) (seed : UInt64) (cell : Cell) (js : List (Junction Point)) :
    List Entry :=
  let rows := js.toArray
  let (picked, _) := choose rows.size cap (Generator.ofKey seed cell.raw)
  picked.filterMap fun i => rows[i]?.map fun j => ⟨j.id, j.position, cell.raw⟩

/-- The sample of the partition of a cell; there is none without a table of junctions. -/
def samplePartition (c : Catalog) (disk : Disk) (cap : Nat) (seed : UInt64) (cell : Cell) :
    Except Dataset.Fault (List Entry) := do
  let js ← Dataset.rowsIfThere disk (Dataset.readJunctions Dataset.batchSize) (c.junctionFile cell)
  return sampleJunctions cap seed cell js

/-- The samples of all partitions. -/
def sampleCatalog (c : Catalog) (disk : Disk) (cap : Nat) (seed : UInt64) :
    Except Dataset.Fault (List Entry) := do
  return (← c.cells.toList.mapM (samplePartition c disk cap seed)).flatten

/-- How a planner is opened, apart from its settings. -/
structure Opening (α : Type) where
  /-- Where the index is archived; the directory of the dataset when absent. -/
  indexDirectory : Option Path
  /-- Whether a new index is archived. -/
  persist : Bool
  /-- The search for long trips; the guided one at the expected speed when absent. -/
  guided : Option (Finder α Point)

/-- What opening gives: a result, warnings in their order, and the files afterwards. -/
structure Opened (β : Type) where
  result : Except Fault β
  warnings : List Warning
  disk : Disk

/-- Makes a new index from samples, and archives it if wanted. Nothing is archived when the samples
cannot be packed. -/
def coldIndex (c : Catalog) (s : Settings) (disk : Disk) (dir : Path) (persist : Bool)
    (warnings : List Warning) : Opened Index :=
  match sampleCatalog c disk s.sampleCap s.seed with
  | .error f => ⟨.error (.dataset f), warnings, disk⟩
  | .ok entries => match Index.ofEntries entries (expectedHeader c s) (snapOptions s) with
    | .error b => ⟨.error (.breakdown b), warnings, disk⟩
    | .ok index =>
      if persist then
        match index.save disk dir with
        | (.ok (), disk) => ⟨.ok index, warnings, disk⟩
        | (.error f, disk) => ⟨.ok index, warnings ++ [.notSaved dir f], disk⟩
      else ⟨.ok index, warnings, disk⟩

/-- The archived index if it can be used, or else a new one. -/
def openIndex (c : Catalog) (s : Settings) (disk : Disk) (dir : Path) (persist : Bool) :
    Opened Index :=
  match Index.load disk dir (expectedHeader c s) (snapOptions s) with
  | .ok (some index) => ⟨.ok index, [], disk⟩
  | .ok none => coldIndex c s disk dir persist []
  | .error f => coldIndex c s disk dir persist [.discarded dir f]

/-- The planner of a catalog and an index, with nothing loaded. -/
def planner (s : Settings) (c : Catalog) (index : Index) (guided : Option (Finder Float Point)) :
    Planner Float where
  settings := s
  catalog := c
  index
  holding := .empty
  travel := (Speed.Profile.ofReplacements s.replacements).seconds
  guided := guided.getD (Network.guided Point.distance s.topSpeed)

/-- Opens a planner on the dataset in a directory. -/
def openPlanner (s : Settings) (disk : Disk) (root : Path) (o : Opening Float) :
    Opened (Planner Float) :=
  match s.fault? with
  | some f => ⟨.error (.settings f), [], disk⟩
  | none => match Catalog.load disk root with
    | .error f => ⟨.error (.dataset f), [], disk⟩
    | .ok c =>
      let opened := openIndex c s disk (o.indexDirectory.getD root) o.persist
      ⟨opened.result.map fun index => planner s c index o.guided, opened.warnings, opened.disk⟩

end RoadRouting.Trip
