import RoadRouting.Snap.Index
import RoadRouting.Store.Document

/-!
# Archived snap indexes

An index is archived in two files, one with its entries and one with its coordinates, each under the
index's header. It is taken back only if both files carry the expected header and agree with each
other entry for entry.
-/

namespace RoadRouting.Snap
set_option autoImplicit false
open Store (Path Disk)

/-- The file of the entries. -/
def entriesFile : String := "spatial_index.idx"

/-- The file of the coordinates. -/
def coordinatesFile : String := "node_coords.bin"

/-- What is wrong with an archived file. -/
inductive Defect where
  | header (found expected : Header)
  | count (coordinates entries : Nat)
  | disagreement (id : Int64)
  | partition (id : Int64)

/-- The wording of a defect. -/
def Defect.message : Defect → String
  | .header found expected => "built for " ++ found.text ++ ", expected " ++ expected.text
  | .count coordinates entries =>
    toString coordinates ++ " coordinates for " ++ toString entries ++ " index entries"
  | .disagreement id => "node " ++ toString id ++ " disagrees with the index"
  | .partition id => "node " ++ toString id ++ " has an invalid partition"

/-- Why an index was not archived or not taken back. -/
inductive ArchiveFault where
  /-- A file cannot be written. -/
  | inaccessible
  /-- A file holds something else. -/
  | undecodable
  | defective (file : Path) (defect : Defect)

/-- The wording of a fault. -/
def ArchiveFault.message : ArchiveFault → String
  | .inaccessible => "I/O error"
  | .undecodable => "index decode error"
  | .defective file defect => "invalid index artifact " ++ file.text ++ ": " ++ defect.message

/-- The coordinates of an index in ascending order of the nodes. -/
def Index.coordinateTable (ix : Index) : List (Int64 × Point) :=
  ix.coordinates.toList.mergeSort fun a b => a.1 ≤ b.1

/-- Writes both files of an index into a directory. -/
def Index.save (ix : Index) (disk : Disk) (dir : Path) : Except ArchiveFault Unit × Disk :=
  match disk.makeDirectories dir with
  | (false, disk) => (.error .inaccessible, disk)
  | (true, disk) =>
    match disk.write? (dir.child entriesFile) (.entries ix.header ix.entries) with
    | none => (.error .inaccessible, disk)
    | some disk =>
      match disk.write? (dir.child coordinatesFile) (.coordinates ix.header ix.coordinateTable) with
      | none => (.error .inaccessible, disk)
      | some disk => (.ok (), disk)

/-- Checks the header of a file. -/
def checkHeader (file : Path) (found expected : Header) : Except ArchiveFault Unit :=
  if found = expected then .ok () else .error (.defective file (.header found expected))

/-- What is wrong with an entry, given the recorded coordinates; the file at fault comes first. -/
def Entry.defect? (e : Entry) (coordinates : Std.HashMap Int64 Point) : Option (String × Defect) :=
  if !(coordinates[e.id]?.any (· == e.position)) then
    some (coordinatesFile, .disagreement e.id)
  else match Grid.Cell.ofRaw e.partition with
    | .ok _ => none
    | .error _ => some (entriesFile, .partition e.id)

/-- What is wrong with the first entry, in the order in which they are visited, that has a defect. -/
def firstDefect? (entries : List Entry) (coordinates : Std.HashMap Int64 Point) :
    Option (String × Defect) :=
  if entries.all fun e => (e.defect? coordinates).isNone then none
  else (visitOrder entries).findSome? (·.defect? coordinates)

/-- Takes an index back from a directory; nothing when one of the files is not there. -/
def Index.load (disk : Disk) (dir : Path) (expected : Header) (options : Options) :
    Except ArchiveFault (Option Index) := do
  let entriesPath := dir.child entriesFile
  let coordinatesPath := dir.child coordinatesFile
  match disk.read? entriesPath, disk.read? coordinatesPath with
  | some entriesDoc, some coordinatesDoc =>
    let .entries header entries := entriesDoc | .error .undecodable
    checkHeader entriesPath header expected
    let .coordinates coordinateHeader table := coordinatesDoc | .error .undecodable
    checkHeader coordinatesPath coordinateHeader expected
    if table.length ≠ entries.length then
      .error (.defective coordinatesPath (.count table.length entries.length))
    let coordinates : Std.HashMap Int64 Point := table.foldl (fun m r => m.insert r.1 r.2) ∅
    match firstDefect? entries coordinates with
    | some (file, defect) => .error (.defective (dir.child file) defect)
    | none => return some { Index.ofPacked entries header options with coordinates }
  | _, _ => return none

end RoadRouting.Snap
