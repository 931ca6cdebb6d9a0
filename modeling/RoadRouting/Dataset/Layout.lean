import RoadRouting.Dataset.Rows
import RoadRouting.Store.Document

/-!
# The layout of a dataset

A dataset is a directory with a manifest, a directory of junction tables and one of road tables, each
named for the resolution, and in these a file for each cell. This module also says what can be wrong
with a dataset.
-/

namespace RoadRouting.Dataset
set_option autoImplicit false
open Store (Path)
open Grid (Cell Resolution)

/-- The name of the manifest. -/
def manifestName : String := "metadata.json"

/-- The directory of the junction tables. -/
def junctionDirectory (root : Path) (r : Resolution) : Path :=
  root.child ("nodes_h3_" ++ toString r.val)

/-- The directory of the road tables. -/
def roadDirectory (root : Path) (r : Resolution) : Path :=
  root.child ("edges_h3_" ++ toString r.val)

/-- The beginning of the name of a cell's file. -/
def fileStart : List Char := ['h', '3', '_']

/-- The ending of the name of a cell's file. -/
def fileEnding : List Char := ['p', 'a', 'r', 'q', 'u', 'e', 't']

/-- The name of a cell's file. -/
def fileName (c : Cell) : String :=
  String.ofList (fileStart ++ c.text.toList ++ '.' :: fileEnding)

/-- A name without its ending, and the ending: what follows the last point. A name whose only point
stands in front has no ending. -/
def splitName (name : List Char) : List Char × Option (List Char) :=
  let ending := (name.reverse.takeWhile (· ≠ '.')).reverse
  let before := name.take (name.length - ending.length - 1)
  if before.isEmpty || ending.length = name.length then (name, none) else (before, some ending)

/-- What a file name says of the cell, if it has the form of a cell's file. -/
def cellPart? (name : String) : Option String :=
  let (stem, ending) := splitName name.toList
  if ending = some fileEnding && fileStart.isPrefixOf stem then
    some (String.ofList (stem.drop fileStart.length))
  else none

/-- Why a key names no partition of a dataset. -/
inductive KeyFault where
  | text (key : String) (refusal : Cell.Refusal)
  | number (raw : UInt64) (refusal : Cell.Refusal)
  | resolution (cell : Cell) (expected : Nat)

/-- The wording of a fault of a key. -/
def KeyFault.message : KeyFault → String
  | .text key refusal => "invalid partition key " ++ Text.quoted key ++ ": " ++ refusal.message
  | .number raw refusal =>
    "invalid partition key 0x" ++ Text.hex raw.toNat ++ ": " ++ refusal.message
  | .resolution cell expected =>
    "invalid partition key " ++ cell.text ++ " has resolution " ++ toString cell.resolution.val ++
      ", manifest says " ++ toString expected

/-- The cell that a key names. -/
def readKey (key : String) : Except KeyFault Cell :=
  match Cell.fromText key with
  | .ok c => .ok c
  | .error r => .error (.text key r)

/-- The cell that a number names. -/
def numberKey (raw : UInt64) : Except KeyFault Cell :=
  match Cell.fromNumber raw with
  | .ok c => .ok c
  | .error r => .error (.number raw r)

/-- What is wrong with a dataset. A partition without files is not wrong. -/
inductive Fault where
  | manifestMissing (file : Path)
  | resolution (n : Nat)
  | key (fault : KeyFault)
  | column (file : Path) (misfit : Misfit)
  | coordinate (junction : Junction Point)
  | unknownSource (source target : Int64)
  /-- The manifest is no JSON document of the right form. -/
  | malformedManifest
  /-- A file is no table. -/
  | noTable
  /-- A file cannot be read or written. -/
  | inaccessible

/-- The wording of a fault. -/
def Fault.message : Fault → String
  | .manifestMissing file => "partition manifest not found at " ++ file.text
  | .resolution n =>
    "malformed partition manifest: resolution_level " ++ toString n ++ ": " ++
      Grid.resolutionRefusal n
  | .key fault => fault.message
  | .column file misfit =>
    file.text ++ ": column " ++ Text.quoted misfit.column ++ ": " ++ misfit.fault.message
  | .coordinate j =>
    "node " ++ toString j.id ++ " has invalid coordinates (" ++ Decimal.plain j.position.lat ++ ", " ++
      Decimal.plain j.position.lon ++ ")"
  | .unknownSource source target =>
    "edge " ++ toString source ++ "->" ++ toString target ++
      " references a source node that was not supplied"
  | .malformedManifest => "JSON error"
  | .noTable => "Parquet error"
  | .inaccessible => "I/O error"

end RoadRouting.Dataset
