import RoadRouting.Proofs.Dataset.Placement
import RoadRouting.Proofs.Dataset.Tables
import RoadRouting.Proofs.Dataset.Writing

/-!
# Networks that are written and read

A network that is written is read back whole: the catalog lists the cells of its junctions, the partition
of a cell has the rows that belong there, in order, and all partitions together have every row once.
Files of networks that were written earlier do not matter.
-/

namespace RoadRouting.Dataset
set_option autoImplicit false
open Store (Path Disk)
open Grid (Cell CellSet Resolution)

section Networks
variable {disk : Disk} {root : Path} {r : Resolution} {js : List (Junction Point)} {rs : List (Road Float)}

/-- What belongs to a cell: the junctions that it contains, and the roads that begin at a junction whose
last listed row it contains. -/
def partitionOf (r : Resolution) (js : List (Junction Point)) (rs : List (Road Float)) (cell : Cell) :
    Partition Float Point where
  cell := cell
  junctions := js.filter fun j => cellOf r j = some cell
  roads := rs.filter fun e => homeOf r js e.source = some cell

/-- All partitions together have every row once. -/
theorem perm_partitions (hjs : ∀ j ∈ js, j.position.isValid) (hrs : ∀ e ∈ rs, ∃ j ∈ js, j.id = e.source)
    {cells : List Cell} (hnodup : cells.Nodup)
    (hcells : ∀ cell, cell ∈ cells ↔ ∃ j ∈ js, cellOf r j = some cell) :
    (cells.flatMap fun cell => (partitionOf r js rs cell).junctions).Perm js ∧
      (cells.flatMap fun cell => (partitionOf r js rs cell).roads).Perm rs := by
  have hhome : ∀ j ∈ js, ∃ cell ∈ cells, cellOf r j = some cell := by
    intro j hj
    obtain ⟨cell, hcell⟩ := Option.isSome_iff_exists.1 (isSome_cellOf.2 (hjs j hj))
    exact ⟨cell, (hcells cell).2 ⟨j, hj, hcell⟩, hcell⟩
  constructor
  · exact flatMap_filter_perm hnodup hhome
  · refine flatMap_filter_perm hnodup fun e he => ?_
    rcases homeOf_cases r js e.source with ⟨-, hnone⟩ | ⟨j, hj, -, heq⟩
    · obtain ⟨j, hj, hid⟩ := hrs e he
      exact absurd hid (hnone j hj)
    · obtain ⟨cell, hmem, hcell⟩ := hhome j hj
      exact ⟨cell, hmem, heq.trans hcell⟩

/-- The catalog of a network lists the cells that contain its junctions. -/
def catalogOf (root : Path) (r : Resolution) (js : List (Junction Point)) : Catalog :=
  .ofCells root r (cellsOf (labelled (cellOf r) js))

theorem contains_ofCells {cells : List Cell} {cell : Cell} :
    (Catalog.ofCells root r cells).cells.contains cell ↔ cell ∈ cells := by
  rw [Catalog.ofCells, contains_foldl_insert]
  simp

theorem contains_catalogOf {cell : Cell} :
    (catalogOf root r js).cells.contains cell ↔ ∃ j ∈ js, cellOf r j = some cell :=
  contains_ofCells.trans mem_cellsOf_labelled

theorem size_catalogOf :
    (catalogOf root r js).cells.size = (cellsOf (labelled (cellOf r) js)).length := by
  rw [← Std.TreeSet.length_toList]
  refine ((List.perm_ext_iff_of_nodup (nodup_toList _) (nodup_cellsOf _)).2 fun cell => ?_).length_eq
  rw [Std.TreeSet.mem_toList, Std.TreeSet.mem_iff_contains, catalogOf, contains_ofCells]

/-- The partition of a cell is read from its tables. -/
theorem Stored.read {placed : List (Cell × Junction Point)} {roads : List (Cell × Road Float)}
    {cell : Cell} (h : Stored disk root r placed roads cell)
    (hlength : ∀ e ∈ within cell roads, isLength e.length) {cells : List Cell} :
    (Catalog.ofCells root r cells).read disk cell = .ok ⟨cell, within cell placed, within cell roads⟩ := by
  rw [Catalog.read_eq_ok]
  refine ⟨rfl, ?_, ?_⟩
  · exact rowsIfThere_of_item? (Store.Files.item?_of_read? h.junctions) (readJunctions_junctionTable (by decide) _)
  · exact rowsIfThere_of_item? (Store.Files.item?_of_read? h.roads) (readRoads_roadTable (by decide) hlength)

/-- A network is written where that is possible, and its catalog and partitions are read. -/
theorem writeNetwork_read (h : Ready disk root) (hjs : ∀ j ∈ js, j.position.isValid)
    (hrs : ∀ e ∈ rs, ∃ j ∈ js, j.id = e.source) (hlengths : ∀ e ∈ rs, isLength e.length) :
    ∃ disk', writeNetwork disk root r js rs =
        (.ok ⟨(catalogOf root r js).cells.size, js.length, rs.length⟩, disk') ∧
      Catalog.load disk' root = .ok (catalogOf root r js) ∧
      ∀ cell, (catalogOf root r js).cells.contains cell →
        (catalogOf root r js).read disk' cell = .ok (partitionOf r js rs cell) := by
  obtain ⟨disk', hwrite, -, hmanifest, hstored⟩ := writeNetwork_ok h (layOut_eq_ok r hjs hrs)
  refine ⟨disk', by rw [hwrite, size_catalogOf], ?_, ?_⟩
  · refine Catalog.load_manifest hmanifest fun cell hcell => ?_
    obtain ⟨j, -, hj⟩ := mem_cellsOf_labelled.1 hcell
    exact Cell.resolution_containing hj
  · intro cell hcell
    have hlength : ∀ e ∈ within cell (labelled (fun e => homeOf r js e.source) rs), isLength e.length := by
      intro e he
      rw [within_labelled] at he
      exact hlengths e (List.mem_filter.1 he).1
    rw [catalogOf, (hstored cell (contains_ofCells.1 hcell)).read hlength, within_labelled,
      within_labelled]
    rfl

/-- A network with valid positions and lengths, in which the roads begin at listed junctions, is written
over whatever was written before, and is read back: the catalog has the cells of the junctions, each
partition has what belongs to its cell, and together they have every row once. A network with a junction
off the globe, or with a road that begins at no listed junction, is refused and nothing is written. -/
theorem writeNetwork_gives_back (disk : Disk) (root : Path) (r : Resolution) (js : List (Junction Point))
    (rs : List (Road Float)) :
    (Written root disk → (∀ j ∈ js, j.position.isValid) → (∀ e ∈ rs, ∃ j ∈ js, j.id = e.source) →
      (∀ e ∈ rs, isLength e.length) →
      ∃ disk' c, writeNetwork disk root r js rs = (.ok ⟨c.cells.size, js.length, rs.length⟩, disk') ∧
        Catalog.load disk' root = .ok c ∧
        (∀ cell, c.cells.contains cell ↔ ∃ j ∈ js, Cell.containing j.position r = some cell) ∧
        (∀ cell, c.cells.contains cell → c.read disk' cell = .ok (partitionOf r js rs cell)) ∧
        ∃ parts, c.cells.toList.mapM (c.read disk') = .ok parts ∧
          (parts.flatMap (·.junctions)).Perm js ∧ (parts.flatMap (·.roads)).Perm rs) ∧
    ((∃ j ∈ js, ¬ j.position.isValid) → ∃ j ∈ js, ¬ j.position.isValid ∧
      writeNetwork disk root r js rs = (.error (.coordinate j), disk)) ∧
    ((∀ j ∈ js, j.position.isValid) → (∃ e ∈ rs, ∀ j ∈ js, j.id ≠ e.source) →
      ∃ e ∈ rs, (∀ j ∈ js, j.id ≠ e.source) ∧
        writeNetwork disk root r js rs = (.error (.unknownSource e.source e.target), disk)) := by
  refine ⟨?_, ?_, ?_⟩
  · intro hdisk hjs hrs hlengths
    obtain ⟨disk', hwrite, hload, hread⟩ := writeNetwork_read (r := r) hdisk.ready hjs hrs hlengths
    have hlist (cell : Cell) : cell ∈ (catalogOf root r js).cells.toList ↔
        (catalogOf root r js).cells.contains cell := by
      rw [Std.TreeSet.mem_toList, Std.TreeSet.mem_iff_contains]
    have hall := mapM_map_ok fun cell hcell => hread cell ((hlist cell).1 hcell)
    refine ⟨disk', catalogOf root r js, hwrite, hload, fun _ => contains_catalogOf, hread, _, hall, ?_⟩
    rw [List.flatMap_map, List.flatMap_map]
    exact perm_partitions hjs hrs (nodup_toList _) fun cell => (hlist cell).trans contains_catalogOf
  · intro hinvalid
    obtain ⟨j, hj, hnot, hlay⟩ := layOut_invalid r rs hinvalid
    exact ⟨j, hj, hnot, writeNetwork_error hlay⟩
  · intro hjs hunknown
    obtain ⟨e, he, hnot, hlay⟩ := layOut_unknown r hjs hunknown
    exact ⟨e, he, hnot, writeNetwork_error hlay⟩

end Networks

/-! ## A street that is written twice -/

namespace Street

def root : Path := ⟨["data"]⟩

/-- The ends of a street; the second one is listed again, far away. -/
def ends : List (Junction Point) := [⟨1, ⟨0.5, 0.5⟩⟩, ⟨2, ⟨0.5, 0.75⟩⟩, ⟨2, ⟨0.5, 40.0⟩⟩]

def street : Road Float := ⟨2, 1, 100.0, "residential", none, true⟩

def oncoming : Road Float := ⟨1, 2, 100.0, "residential", none, true⟩

/-- A road that begins at no end of the street. -/
def stray : Road Float := ⟨3, 1, 100.0, "residential", none, true⟩

/-- A junction off the globe. -/
def adrift : Junction Point := ⟨1, ⟨90.5, 0.5⟩⟩

/-- A disk with the street in both directions. -/
def before : Disk := (writeNetwork .empty root 5 ends [street, oncoming]).2

theorem ready_empty : Ready .empty root := by
  have hmake : (Store.Files.empty : Disk).make [] root.parts =
      (true, (Store.Files.empty : Disk).put ["data"] .directory) := by
    simp [root, Store.Files.make, Store.Files.at?, Store.Files.empty, Path.move, Path.isIdle, Path.isName]
    decide
  have hat (l : Store.Location) : ((Store.Files.empty : Disk).put ["data"] .directory).at? l =
      if l = [] ∨ ["data"] = l then some .directory else none := by
    rw [Store.Files.at?_put]
    by_cases h0 : l = []
    · simp [h0]
    · simp [h0, Store.Files.at?, Store.Files.empty]
  have hlocation : root.location = ["data"] := by decide +kernel
  refine ⟨by decide +kernel, by decide +kernel, by rw [hmake], ?_⟩
  rw [hmake]
  constructor
  · intro name _ doc
    simp [hlocation, hat]
  · intro name _ cell
    simp [hlocation, Store.Files.hasDirectory, hat]
  · simp [hlocation, Store.Files.hasDirectory, hat]

/-- The street in one direction is read back where it was written in both directions before. -/
theorem gives_back_street :
    (Written root before ∧ (∀ j ∈ ends, j.position.isValid) ∧
      (∀ e ∈ [street], ∃ j ∈ ends, j.id = e.source) ∧ (∀ e ∈ [street], isLength e.length) ∧
      ¬ adrift.position.isValid ∧ ∀ j ∈ ends, j.id ≠ stray.source) ∧
    (∃ disk' c, writeNetwork before root 5 ends [street] = (.ok ⟨c.cells.size, 3, 1⟩, disk') ∧
      Catalog.load disk' root = .ok c ∧
      (∀ cell, c.cells.contains cell ↔ ∃ j ∈ ends, Cell.containing j.position 5 = some cell) ∧
      (∀ cell, c.cells.contains cell → c.read disk' cell = .ok (partitionOf 5 ends [street] cell)) ∧
      ∃ parts, c.cells.toList.mapM (c.read disk') = .ok parts ∧
        (parts.flatMap (·.junctions)).Perm ends ∧ (parts.flatMap (·.roads)).Perm [street]) ∧
    writeNetwork before root 5 [adrift] [] = (.error (.coordinate adrift), before) ∧
    writeNetwork before root 5 ends [stray] = (.error (.unknownSource 3 1), before) := by
  have hwritten : Written root before := .write 5 ends [street, oncoming] (.start ready_empty)
  have hvalid : ∀ j ∈ ends, j.position.isValid := by decide +kernel
  have hsources : ∀ e ∈ [street], ∃ j ∈ ends, j.id = e.source := by decide +kernel
  have hlengths : ∀ e ∈ [street], isLength e.length := by decide +kernel
  have hadrift : ¬ adrift.position.isValid := by decide +kernel
  have hstray : ∀ j ∈ ends, j.id ≠ stray.source := by decide +kernel
  refine ⟨⟨hwritten, hvalid, hsources, hlengths, hadrift, hstray⟩, ?_, ?_, ?_⟩
  · exact (writeNetwork_gives_back before root 5 ends [street]).1 hwritten hvalid hsources hlengths
  · obtain ⟨j, hj, -, heq⟩ := (writeNetwork_gives_back before root 5 [adrift] []).2.1
      ⟨adrift, List.mem_singleton_self _, hadrift⟩
    rwa [List.mem_singleton.1 hj] at heq
  · obtain ⟨e, he, -, heq⟩ := (writeNetwork_gives_back before root 5 ends [stray]).2.2 hvalid
      ⟨stray, List.mem_singleton_self _, hstray⟩
    rwa [List.mem_singleton.1 he] at heq

end Street
end RoadRouting.Dataset
