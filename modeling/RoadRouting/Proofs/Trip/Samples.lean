import RoadRouting.Proofs.Sampling.Picks
import RoadRouting.Proofs.Trip.LastWrites
import RoadRouting.Trip.Startup

/-!
# Samples of partitions

The sample of a catalog has from each partition some of its junctions, in their order: all of them, or as
many as are wanted. Which ones these are depends on the seed, the cell and the junctions of the partition
alone, so it is the same whatever other partitions there are (`samples_exact`).
-/

namespace RoadRouting.Trip
set_option autoImplicit false
open Dataset (Catalog Junction)
open Grid (Cell)
open Sampling (Generator Method Picks choose)
open Snap (Entry)
open Store (Disk)

/-- The junctions of a cell as a sample reads them: there are none without a table. -/
def rowsOf (c : Catalog) (disk : Disk) (cell : Cell) : Except Dataset.Fault (List (Junction Point)) :=
  Dataset.rowsIfThere disk (Dataset.readJunctions Dataset.batchSize) (c.junctionFile cell)

/-- The entries that are labelled with a cell. -/
def entriesOf (cell : Cell) (es : List Entry) : List Entry := es.filter fun e => e.partition = cell.raw

/-- Entries for some of the junctions of a cell, in their order and labelled with the cell; for all of
them, or for as many as are wanted. -/
inductive SampleOf (cap : Nat) (cell : Cell) (js : List (Junction Point)) : List Entry → Prop
  | intro (rows : List (Junction Point)) : rows.Sublist js → rows.length = min cap js.length →
      SampleOf cap cell js (rows.map fun j => ⟨j.id, j.position, cell.raw⟩)

/-- What a cell gives to the sample of a catalog. -/
def share (c : Catalog) (disk : Disk) (cap : Nat) (seed : UInt64) (cell : Cell) : List Entry :=
  match rowsOf c disk cell with
  | .ok js => sampleJunctions cap seed cell js
  | .error _ => []

section Shares
variable {c : Catalog} {disk : Disk} {cap : Nat} {seed : UInt64} {cell : Cell} {js : List (Junction Point)}
  {es : List Entry}

theorem sampleOf_sampleJunctions (cap : Nat) (seed : UInt64) (cell : Cell) (js : List (Junction Point)) :
    SampleOf cap cell js (sampleJunctions cap seed cell js) := by
  have hpicks := Sampling.picks_choose js.length cap (Generator.ofKey seed cell.raw)
  have hsample : sampleJunctions cap seed cell js =
      (choose js.length cap (Generator.ofKey seed cell.raw)).1.filterMap
        fun i => js[i]?.map fun j => ⟨j.id, j.position, cell.raw⟩ := by
    simp only [sampleJunctions, List.size_toArray, List.getElem?_toArray]
  obtain ⟨hsublist, hlength⟩ := filterMap_getElem?_sublist hpicks.ascending hpicks.below
  rw [hsample, ← List.map_filterMap]
  exact .intro _ hsublist (by rw [hlength, hpicks.length, Nat.min_comm])

theorem sampleJunctions_mem {cap : Nat} {seed : UInt64} {cell : Cell} {js : List (Junction Point)}
    {e : Entry} (h : e ∈ sampleJunctions cap seed cell js) :
    e.partition = cell.raw ∧ ⟨e.id, e.position⟩ ∈ js := by
  obtain ⟨i, -, hi⟩ := List.mem_filterMap.1 h
  obtain ⟨j, hj, rfl⟩ := Option.map_eq_some_iff.1 hi
  rw [List.getElem?_toArray] at hj
  exact ⟨rfl, List.mem_of_getElem? hj⟩

theorem share_eq (h : rowsOf c disk cell = .ok js) :
    share c disk cap seed cell = sampleJunctions cap seed cell js := by
  unfold share
  rw [h]

/-- A share is labelled with its cell. -/
theorem partition_of_mem_share {e : Entry} (h : e ∈ share c disk cap seed cell) :
    e.partition = cell.raw := by
  unfold share at h
  split at h
  · exact (sampleJunctions_mem h).1
  · cases h

theorem samplePartition_eq_ok : samplePartition c disk cap seed cell = .ok es ↔
    ∃ js, rowsOf c disk cell = .ok js ∧ es = share c disk cap seed cell := by
  unfold samplePartition share rowsOf
  cases Dataset.rowsIfThere disk (Dataset.readJunctions Dataset.batchSize) (c.junctionFile cell) with
  | error f => simp [bind, Except.bind]
  | ok js => simp [bind, Except.bind, pure, Except.pure, eq_comm]

/-- A catalog has a sample when the junctions of all cells can be read, and it is put together from their
shares. -/
theorem sampleCatalog_eq_ok : sampleCatalog c disk cap seed = .ok es ↔
    (∀ cell, c.cells.contains cell → ∃ js, rowsOf c disk cell = .ok js) ∧
      es = c.cells.toList.flatMap (share c disk cap seed) := by
  have hshares : (∀ cell, c.cells.contains cell → ∃ js, rowsOf c disk cell = .ok js) →
      c.cells.toList.mapM (samplePartition c disk cap seed) =
        .ok (c.cells.toList.map (share c disk cap seed)) := by
    intro hrows
    refine mapM_map_ok fun cell hcell => ?_
    obtain ⟨js, hjs⟩ := hrows cell (Std.TreeSet.mem_toList.1 hcell)
    exact samplePartition_eq_ok.2 ⟨js, hjs, rfl⟩
  have hcatalog : sampleCatalog c disk cap seed = .ok es ↔
      ∃ parts, c.cells.toList.mapM (samplePartition c disk cap seed) = .ok parts ∧ parts.flatten = es := by
    unfold sampleCatalog
    rw [bind_eq_ok]
    simp only [pure, Except.pure, Except.ok.injEq]
  rw [hcatalog]
  constructor
  · rintro ⟨parts, hparts, rfl⟩
    have hrows : ∀ cell, c.cells.contains cell → ∃ js, rowsOf c disk cell = .ok js := by
      intro cell hcell
      obtain ⟨part, -, hpart⟩ := exists_of_mem_left (mapM_eq_ok hparts) (Std.TreeSet.mem_toList.2 hcell)
      obtain ⟨js, hjs, -⟩ := samplePartition_eq_ok.1 hpart
      exact ⟨js, hjs⟩
    rw [hshares hrows] at hparts
    cases hparts
    exact ⟨hrows, List.flatMap_def.symm⟩
  · rintro ⟨hrows, rfl⟩
    exact ⟨_, hshares hrows, List.flatMap_def.symm⟩

/-- The entries of a cell are its share. -/
theorem entriesOf_sample (hcell : c.cells.contains cell) :
    entriesOf cell (c.cells.toList.flatMap (share c disk cap seed)) = share c disk cap seed cell := by
  refine filter_flatMap_eq (P := fun cell (e : Entry) => decide (e.partition = cell.raw))
    (nodup_toList c.cells) (fun k k' e he => ?_) (Std.TreeSet.mem_toList.2 hcell)
  rw [decide_eq_true_iff, partition_of_mem_share he]
  exact ⟨Grid.Cell.raw_inj, congrArg Cell.raw⟩

end Shares

/-- What is chosen ascends below the length and is as much as is wanted or there is, whichever method is
used. So the sample of a catalog, which there is exactly when the junctions of all its cells can be read,
has so many junctions of each cell, in their order; and the same ones in the sample of any other catalog
that has the cell with these junctions. -/
theorem samples_exact :
    (∀ seed key len amount, Picks len amount (choose len amount (Generator.ofKey seed key)).1) ∧
    (∀ (m : Method) g len amount, amount ≤ len →
      Picks len amount ((m.run len amount g).picked.mergeSort (· ≤ ·))) ∧
    ∀ (c : Catalog) (disk : Disk) (cap : Nat) (seed : UInt64),
      ((∃ es, sampleCatalog c disk cap seed = .ok es) ↔
        ∀ cell, c.cells.contains cell → ∃ js, rowsOf c disk cell = .ok js) ∧
      ∀ es, sampleCatalog c disk cap seed = .ok es →
        (es = c.cells.toList.flatMap fun cell => entriesOf cell es) ∧
        ∀ cell, c.cells.contains cell → ∃ js, rowsOf c disk cell = .ok js ∧
          SampleOf cap cell js (entriesOf cell es) ∧
          ∀ (c' : Catalog) (disk' : Disk) (es' : List Entry), c'.cells.contains cell →
            rowsOf c' disk' cell = .ok js → sampleCatalog c' disk' cap seed = .ok es' →
            entriesOf cell es' = entriesOf cell es := by
  refine ⟨fun _ _ len amount => Sampling.picks_choose len amount _,
    fun m g len amount hle => (m.run_distinct hle g).picks hle, fun c disk cap seed => ⟨?_, ?_⟩⟩
  · simp only [sampleCatalog_eq_ok]
    exact ⟨fun ⟨_, hrows, _⟩ => hrows, fun hrows => ⟨_, hrows, rfl⟩⟩
  · intro es hes
    obtain ⟨hrows, rfl⟩ := sampleCatalog_eq_ok.1 hes
    refine ⟨?_, fun cell hcell => ?_⟩
    · refine List.flatMap_congr fun cell hcell => ?_
      rw [entriesOf_sample (Std.TreeSet.mem_toList.1 hcell)]
    · obtain ⟨js, hjs⟩ := hrows cell hcell
      rw [entriesOf_sample hcell, share_eq hjs]
      refine ⟨js, hjs, sampleOf_sampleJunctions cap seed cell js, ?_⟩
      intro c' disk' es' hcell' hjs' hes'
      obtain ⟨-, rfl⟩ := sampleCatalog_eq_ok.1 hes'
      rw [entriesOf_sample hcell', share_eq hjs']

namespace Pair

/-- The catalog of the western partition alone. -/
def westCatalog : Catalog := .ofCells ⟨[]⟩ west.resolution [west]

theorem samples_exact_pair :
    (2 ≤ 5 ∧ Picks 5 2 ((Method.rejection.run 5 2 (Generator.ofSeed 0)).picked.mergeSort (· ≤ ·))) ∧
    catalog.cells.contains west ∧ westCatalog.cells.contains west ∧
    rowsOf catalog (files westPart eastPart) west = .ok westPart.junctions ∧
    ∃ es es', sampleCatalog catalog (files westPart eastPart) 1 0 = .ok es ∧
      SampleOf 1 west westPart.junctions (entriesOf west es) ∧
      sampleCatalog westCatalog (files westPart eastPart) 1 0 = .ok es' ∧
      entriesOf west es' = entriesOf west es := by
  obtain ⟨-, hmethods, hcatalogs⟩ := samples_exact
  obtain ⟨hreadWest, hreadEast⟩ := read_files (w := westPart) (e := eastPart) rfl rfl
    (by decide +kernel) (by decide +kernel)
  have hwest : rowsOf catalog (files westPart eastPart) west = .ok westPart.junctions :=
    (Catalog.read_eq_ok.1 hreadWest).2.1
  have heast : rowsOf catalog (files westPart eastPart) east = .ok eastPart.junctions :=
    (Catalog.read_eq_ok.1 hreadEast).2.1
  have hthere : catalog.cells.contains west := mem_cells.2 (.inl rfl)
  have hthere' : westCatalog.cells.contains west := by decide +kernel
  have honly {cell : Cell} (h : westCatalog.cells.contains cell) : cell = west := by
    have hlist : westCatalog.cells.toList = [west] := by decide +kernel
    have hmem := Std.TreeSet.mem_toList.2 h
    rw [hlist] at hmem
    exact List.mem_singleton.1 hmem
  obtain ⟨hexists, hall⟩ := hcatalogs catalog (files westPart eastPart) 1 0
  obtain ⟨es, hes⟩ := hexists.2 fun cell hcell => by
    rcases mem_cells.1 hcell with rfl | rfl
    · exact ⟨_, hwest⟩
    · exact ⟨_, heast⟩
  obtain ⟨es', hes'⟩ := (hcatalogs westCatalog (files westPart eastPart) 1 0).1.2 fun cell hcell => by
    rw [honly hcell]
    exact ⟨_, hwest⟩
  obtain ⟨js, hjs, hsample, hsame⟩ := (hall es hes).2 west hthere
  obtain rfl : js = westPart.junctions := Except.ok.inj (hjs.symm.trans hwest)
  exact ⟨⟨by decide, hmethods .rejection (Generator.ofSeed 0) 5 2 (by decide)⟩, hthere, hthere', hwest,
    es, es', hes, hsample, hes', hsame westCatalog _ es' hthere' hwest hes'⟩

end Pair

end RoadRouting.Trip
