import RoadRouting.Proofs.Dataset.Tables
import RoadRouting.Proofs.Snap.Archive
import RoadRouting.Proofs.Trip.Routes
import RoadRouting.Proofs.Trip.Samples

/-!
# Consistent datasets

When all junctions with one identifier have one position, a planner whose index was sampled from the
dataset never finds an indexed node missing or elsewhere (`Planner.integrity_of_consistent`): each
entry is a row of its partition (`Sampled.fromRow`), and what is loaded is faithful to the dataset.
-/

namespace RoadRouting.Trip
set_option autoImplicit false
open Dataset (Catalog Junction)
open Grid (Cell CellSet)
open Network (Finder NodeId)
open Snap (Entry Header Hit Index Options)
open Store (Disk Path)

/-- What the dataset of a catalog has. -/
def stockOf (c : Catalog) (disk : Disk) : Stock Point where
  available := c.cells
  junctions cell :=
    (Dataset.rowsIfThere disk (Dataset.readJunctions Dataset.batchSize) (c.junctionFile cell)).toOption

/-- All junctions with one identifier have one position, of which no coordinate is a NaN. -/
def Consistent (c : Catalog) (disk : Disk) : Prop :=
  ∀ id p q, (stockOf c disk).Lists id p → (stockOf c disk).Lists id q → (p == q) = true

/-- What is read is what the dataset has. -/
def Reads (c : Catalog) (disk : Disk) (read : Reader Float) : Prop :=
  ∀ cell part, c.cells.contains cell → read cell = .ok part → c.read disk cell = .ok part

/-- A row of the partition of a cell has the identifier and the position. -/
def FromRow (c : Catalog) (disk : Disk) (id : Int64) (position : Point) (raw : UInt64) : Prop :=
  ∃ cell, cell.raw = raw ∧ c.cells.contains cell ∧
    ∃ js, (stockOf c disk).junctions cell = some js ∧ ⟨id, position⟩ ∈ js

/-- An index that was made from samples of a dataset, or taken back from where such a one was archived,
with the file of the entries as it was. -/
inductive Sampled (c : Catalog) (disk : Disk) : Index → Prop
  | cold {cap : Nat} {seed : UInt64} {entries : List Entry} {header : Header} {options : Options}
      {ix : Index} : sampleCatalog c disk cap seed = .ok entries →
      Index.ofEntries entries header options = .ok ix → Sampled c disk ix
  | archived {ix ix' : Index} {before after now : Disk} {dir : Path} {expected : Header}
      {options : Options} : Sampled c disk ix → ix.save before dir = (.ok (), after) →
      now.read? (dir.child Snap.entriesFile) = after.read? (dir.child Snap.entriesFile) →
      Index.load now dir expected options = .ok (some ix') → Sampled c disk ix'

variable {c : Catalog} {disk : Disk}

theorem FromRow.lists {id : Int64} {p : Point} {raw : UInt64} (h : FromRow c disk id p raw) :
    (stockOf c disk).Lists id p := by
  obtain ⟨cell, -, hc, hrow⟩ := h
  exact ⟨cell, hc, hrow⟩

theorem junctions_stockOf {cell : Cell} {js : List (Junction Point)}
    (h : Dataset.rowsIfThere disk (Dataset.readJunctions Dataset.batchSize) (c.junctionFile cell) =
      .ok js) : (stockOf c disk).junctions cell = some js :=
  congrArg Except.toOption h

theorem junctions_of_read {cell : Cell} {part : Dataset.Partition Float Point}
    (h : c.read disk cell = .ok part) :
    part.cell = cell ∧ (stockOf c disk).junctions cell = some part.junctions := by
  obtain ⟨hcell, hj, -⟩ := Dataset.Catalog.read_eq_ok.1 h
  exact ⟨hcell, junctions_stockOf hj⟩

/-! ## Where entries come from -/

theorem sampleCatalog_mem {cap : Nat} {seed : UInt64} {entries : List Entry} {e : Entry}
    (h : sampleCatalog c disk cap seed = .ok entries) (he : e ∈ entries) :
    FromRow c disk e.id e.position e.partition := by
  obtain ⟨hrows, rfl⟩ := sampleCatalog_eq_ok.1 h
  obtain ⟨cell, hcell, he⟩ := List.mem_flatMap.1 he
  have hcell := Std.TreeSet.mem_toList.1 hcell
  obtain ⟨js, hjs⟩ := hrows cell hcell
  rw [share_eq hjs] at he
  obtain ⟨hp, hmem⟩ := sampleJunctions_mem he
  exact ⟨cell, hp.symm, hcell, js, junctions_stockOf hjs, hmem⟩

namespace Sampled
variable {ix : Index}

/-- Each entry of a sampled index is a row of its partition. -/
theorem fromRow (h : Sampled c disk ix) :
    ∀ e ∈ ix.entries, FromRow c disk e.id e.position e.partition := by
  induction h with
  | cold hs hix =>
    obtain ⟨-, rfl⟩ := Index.ofEntries_eq_ok_iff.1 hix
    exact fun e he => sampleCatalog_mem hs he
  | archived _ hs hsame hl ih =>
    rw [Index.entries_of_saved hs hsame hl]
    exact ih

/-- Nothing has been asked of a sampled index. -/
theorem memo_empty (h : Sampled c disk ix) : ix.memo = ∅ := by
  cases h with
  | cold _ hix =>
    obtain ⟨-, rfl⟩ := Index.ofEntries_eq_ok_iff.1 hix
    rfl
  | archived _ _ _ hl =>
    obtain ⟨-, -, -, -, -, hmemo⟩ := Index.load_eq_some hl
    exact hmemo

end Sampled

/-- A new index is sampled, whether it is archived or not. -/
theorem coldIndex_sampled {s : Settings} {dir : Path} {persist : Bool} {w : List Warning} {ix : Index}
    (h : (coldIndex c s disk dir persist w).result = .ok ix) : Sampled c disk ix := by
  unfold coldIndex at h
  cases hs : sampleCatalog c disk s.sampleCap s.seed with
  | error f => simp [hs] at h
  | ok entries =>
    cases hix : Index.ofEntries entries (expectedHeader c s) (snapOptions s) with
    | error b => simp [hs, hix] at h
    | ok new =>
      simp only [hs, hix] at h
      split at h
      · split at h <;> cases h <;> exact .cold hs hix
      · cases h
        exact .cold hs hix

/-- A dataset is opened with a sampled index, unless what was archived in its place is another one. -/
theorem openIndex_sampled {s : Settings} {dir : Path} {persist : Bool} {ix : Index}
    (harchive : ∀ old, Index.load disk dir (expectedHeader c s) (snapOptions s) = .ok (some old) →
      Sampled c disk old)
    (h : (openIndex c s disk dir persist).result = .ok ix) : Sampled c disk ix := by
  unfold openIndex at h
  split at h
  · rename_i old hl
    cases h
    exact harchive _ hl
  · exact coldIndex_sampled h
  · exact coldIndex_sampled h

/-- What it takes to open a planner. -/
theorem openPlanner_eq_ok {s : Settings} {root : Path} {o : Opening Float} {p : Planner Float}
    (h : (openPlanner s disk root o).result = .ok p) : s.fault? = none ∧
      ∃ c ix, Catalog.load disk root = .ok c ∧
        (openIndex c s disk (o.indexDirectory.getD root) o.persist).result = .ok ix ∧
        p = planner s c ix o.guided := by
  unfold openPlanner at h
  split at h
  · cases h
  · rename_i hs
    split at h
    · cases h
    · rename_i c hc
      cases hix : (openIndex c s disk (o.indexDirectory.getD root) o.persist).result with
      | error f =>
        simp only [hix] at h
        cases h
      | ok ix =>
        simp only [hix] at h
        cases h
        exact ⟨hs, c, ix, hc, hix, rfl⟩

/-- A planner is opened with the catalog of the dataset and a sampled index. -/
theorem openPlanner_sampled {s : Settings} {root : Path} {o : Opening Float} {p : Planner Float}
    (harchive : ∀ c old, Catalog.load disk root = .ok c →
      Index.load disk (o.indexDirectory.getD root) (expectedHeader c s) (snapOptions s) = .ok (some old) →
      Sampled c disk old)
    (h : (openPlanner s disk root o).result = .ok p) :
    ∃ c ix, Catalog.load disk root = .ok c ∧ Sampled c disk ix ∧ p = planner s c ix o.guided := by
  obtain ⟨-, c, ix, hc, hix, hp⟩ := openPlanner_eq_ok h
  exact ⟨c, ix, hc, openIndex_sampled (fun old hl => harchive c old hc hl) hix, hp⟩

/-! ## What is asked of the planner of a consistent dataset -/

/-- A fault that shows the index and the partitions to differ. -/
def Fault.IsIntegrity : Fault → Prop
  | .disagreement .. => True
  | .missingNode .. => True
  | _ => False

/-- The node of an entry is in a network, at the position of a row that agrees with the entry. -/
def InPlace (d : Stock Point) (g : Network Float Point) (e : Entry) : Prop :=
  ∃ v q, g.lookup e.id = some v ∧ g.position? v = some q ∧ d.Lists e.id q ∧ (q == e.position) = true

/-- A loaded node is found where the index says, or its position is not known. -/
theorem loadedNode_ne_error {g : Network Float Point} {hit : Hit}
    (h : ∀ q, g.positionOf hit.id = some q → (q == hit.position) = true) (f : Fault) :
    loadedNode g hit ≠ .error f := by
  rw [loadedNode_eq]
  split
  · simp
  · rename_i q hq
    simp [h q hq]

/-- The node of a row has a position once the partition of the row is loaded. -/
theorem FromRow.placed {h : Holding Float Point} {id : Int64} {p : Point} {cell : Cell}
    (hrow : FromRow c disk id p cell.raw) (hf : Holding.Faithful (stockOf c disk) h)
    (hl : h.loader.loaded.contains cell) : (h.network.positionOf id).isSome := by
  obtain ⟨cell', hraw, -, js, hjs, hmem⟩ := hrow
  obtain rfl := Cell.raw_inj hraw
  obtain ⟨js', hjs', hplaced⟩ := hf.placed _ hl
  rw [hjs] at hjs'
  cases hjs'
  exact hplaced _ hmem

theorem FromRow.contains {id : Int64} {p : Point} {cell : Cell} (hrow : FromRow c disk id p cell.raw) :
    c.cells.contains cell := by
  obtain ⟨cell', hraw, hc, -⟩ := hrow
  rwa [Cell.raw_inj hraw] at hc

namespace Planner
variable {s : Settings} {ix : Index} {guided : Option (Finder Float Point)} {read : Reader Float}
  {p p' : Planner Float}

/-- A planner that works on a consistent dataset: what it has loaded is faithful, and its entries are
rows. -/
structure Grounded (c : Catalog) (disk : Disk) (p : Planner Float) : Prop where
  consistent : Consistent c disk
  catalog : p.catalog = c
  remembers : p.index.Remembers
  entries : ∀ e ∈ p.index.entries, FromRow c disk e.id e.position e.partition
  faithful : Holding.Faithful (stockOf c disk) p.holding

theorem feeds_supply (h : p.catalog = c) (hread : Reads c disk read) :
    (stockOf c disk).Feeds (p.supply read) where
  available := congrArg Catalog.cells h
  cell cell part hc hp := (junctions_of_read (hread cell part hc hp)).1
  junctions cell part hc hp := (junctions_of_read (hread cell part hc hp)).2

theorem Grounded.moves (hp : p.Grounded c disk) (m : Moves (Reads c disk) p p') :
    p'.Grounded c disk where
  consistent := hp.consistent
  catalog := m.same.catalog.trans hp.catalog
  remembers := m.remembers hp.remembers
  entries := by
    rw [m.same.index.entries]
    exact hp.entries
  faithful := m.faithful hp.faithful fun _ hr => feeds_supply hp.catalog hr

theorem ensure_not_integrity {keys : CellSet} {f : Fault} (h : p.ensure read keys = (.error f, p')) :
    ¬ f.IsIntegrity := by
  have hfst := congrArg Prod.fst h
  unfold ensure at hfst
  rcases he : p.holding.ensure (p.supply read) keys with ⟨lf | report, holding⟩
  · simp only [he, Except.mapError] at hfst
    cases hfst
    cases lf <;> exact id
  · simp only [he, Except.mapError] at hfst
    cases hfst

/-- After a request for its cell, the node of a row is in place. -/
theorem Grounded.positionOf_ensure (hp : p.Grounded c disk) (hread : Reads c disk read) {id : Int64}
    {position : Point} {cell : Cell} (hrow : FromRow c disk id position cell.raw) {report : Report}
    (h : p.ensure read ((∅ : CellSet).insert cell) = (.ok report, p')) :
    (p'.holding.network.positionOf id).isSome := by
  unfold ensure at h
  have hload := hp.faithful.ensure (feeds_supply hp.catalog hread) ((∅ : CellSet).insert cell)
  rcases he : p.holding.ensure (p.supply read) ((∅ : CellSet).insert cell) with ⟨lf | report', holding⟩
  · simp only [he, Except.mapError] at h
    cases h
  · simp only [he] at h hload
    cases h
    obtain ⟨hf, hloaded⟩ := hload
    have hkey : cell ∈ ((∅ : CellSet).insert cell).toList :=
      Std.TreeSet.mem_toList.2 Std.TreeSet.mem_insert_self
    exact hrow.placed hf (hloaded report rfl cell hkey hrow.contains)

/-- A hit of an index is the row of an entry. -/
theorem Grounded.fromRow_of_snap (hp : p.Grounded c disk) {point : Point} {radius : Float} {hit : Hit}
    (h : p.index.snap point radius = .ok (some hit)) : FromRow c disk hit.id hit.position hit.cell.raw := by
  obtain ⟨e, he, hit_of⟩ := Index.snap_of h
  rw [hit_of.id, hit_of.position, hit_of.cell]
  exact hp.entries e he

/-- A hit that is a row is resolved, unless its partition cannot be loaded. -/
theorem Grounded.resolve_not_integrity (hp : p.Grounded c disk) (hread : Reads c disk read) {hit : Hit}
    (hrow : FromRow c disk hit.id hit.position hit.cell.raw) {f : Fault}
    (h : p.resolve read hit = (.error f, p')) : ¬ f.IsIntegrity := by
  have agrees {p₁ : Planner Float} (h₁ : p₁.Grounded c disk) (q : Point)
      (hq : p₁.holding.network.positionOf hit.id = some q) : (q == hit.position) = true :=
    hp.consistent _ _ _ (h₁.faithful.lies _ _ hq) hrow.lists
  have hres := p.resolve_resolved read hit
  rw [h] at hres
  cases hres with
  | elsewhere hf => exact absurd hf (loadedNode_ne_error (agrees hp) f)
  | foreign hc =>
    rw [hp.catalog, hrow.contains] at hc
    cases hc
  | unloaded he => exact ensure_not_integrity he
  | elsewhereLater he hf =>
    have h₁ := hp.moves (moves_of_ensure hread he)
    exact absurd hf (loadedNode_ne_error (agrees h₁) f)
  | absent he hf =>
    have hsome := hp.positionOf_ensure hread hrow he
    rw [positionOf_of_loadedNode hf] at hsome
    cases hsome

/-- No route of a consistent dataset fails because the index and the partitions differ. -/
theorem Grounded.route_not_integrity (hp : p.Grounded c disk) (hread : Reads c disk read)
    {origin destination : Point} {objective : Objective} {f : Fault}
    (h : (p.route read origin destination objective).result = .error f) : ¬ f.IsIntegrity := by
  have hrouted := p.route_routed read origin destination objective
  generalize p.route read origin destination objective = reply at h hrouted
  cases hrouted with
  | uncovered _ _ => cases h
  | unloaded _ h1 =>
    cases h
    exact ensure_not_integrity h1
  | originBroken _ _ hbroken | destinationBroken _ _ _ hbroken =>
    cases h
    obtain ⟨b, rfl⟩ := breakdown_of_nearest hbroken
    exact id
  | originFar _ _ _ | destinationFar _ _ _ _ => cases h
  | originLost _ hs h4 =>
    cases h
    obtain ⟨hstart, -⟩ := hs.snaps hp.remembers
    exact (hp.moves (hs.moves hread)).resolve_not_integrity hread (hp.fromRow_of_snap hstart) h4
  | destinationLost _ hs h4 h5 =>
    cases h
    obtain ⟨-, hgoal⟩ := hs.snaps hp.remembers
    have h3 := hp.moves (hs.moves hread)
    exact (h3.moves (moves_of_resolve hread h4)).resolve_not_integrity hread
      (hp.fromRow_of_snap hgoal) h5
  | searched _ _ _ _ => cases h

/-- The node of an entry is in place once the partition of the entry is loaded. -/
theorem Grounded.inPlace (hp : p.Grounded c disk) {e : Entry} (he : e ∈ p.index.entries) {cell : Cell}
    (hcell : cell.raw = e.partition) (hloaded : p.holding.loader.loaded.contains cell) :
    InPlace (stockOf c disk) p.holding.network e := by
  have hrow := hp.entries e he
  rw [← hcell] at hrow
  obtain ⟨q, hq⟩ := Option.isSome_iff_exists.1 (hrow.placed hp.faithful hloaded)
  have hlists := hp.faithful.lies _ _ hq
  obtain ⟨v, hv, hvq⟩ := Option.bind_eq_some_iff.1 hq
  exact ⟨v, q, hv, hvq, hlists, hp.consistent _ _ _ hlists hrow.lists⟩

theorem grounded_planner (s : Settings) (guided : Option (Finder Float Point))
    (hc : Consistent c disk) (hs : Sampled c disk ix) : (planner s c ix guided).Grounded c disk where
  consistent := hc
  catalog := rfl
  remembers := .of_memo_empty hs.memo_empty
  entries := hs.fromRow
  faithful := .empty _

/-- So nothing differs after any run. -/
theorem Grounded.integrity {p₀ : Planner Float} (hp : p₀.Grounded c disk)
    (hrun : Run (Reads c disk) p₀ p) :
    (∀ read, Reads c disk read → ∀ origin destination objective f,
      (p.route read origin destination objective).result = .error f → ¬ f.IsIntegrity) ∧
    ∀ e ∈ p₀.index.entries, ∀ cell : Cell, cell.raw = e.partition →
      p.holding.loader.loaded.contains cell → InPlace (stockOf c disk) p.holding.network e := by
  have hafter := hp.moves hrun.moves
  constructor
  · intro read hread origin destination objective f hf
    exact hafter.route_not_integrity hread hf
  · intro e he cell hcell hloaded
    rw [← hrun.moves.same.index.entries] at he
    exact hafter.inPlace he hcell hloaded

/-- Whatever is asked of the planner of a consistent dataset, in any order: no route finds an indexed
node missing or elsewhere, and the nodes of the entries whose partitions are loaded are in place. -/
theorem integrity_of_consistent (hc : Consistent c disk) (hs : Sampled c disk ix)
    (hrun : Run (Reads c disk) (planner s c ix guided) p) :
    (∀ read, Reads c disk read → ∀ origin destination objective f,
      (p.route read origin destination objective).result = .error f → ¬ f.IsIntegrity) ∧
    ∀ e ∈ ix.entries, ∀ cell : Cell, cell.raw = e.partition →
      p.holding.loader.loaded.contains cell → InPlace (stockOf c disk) p.holding.network e :=
  (grounded_planner s guided hc hs).integrity hrun

/-- The same holds of what a consistent dataset is opened with, unless the index that was archived in
its place is another one. -/
theorem integrity_of_opened {root : Path} {o : Opening Float} {p₀ : Planner Float}
    (harchive : ∀ c old, Catalog.load disk root = .ok c →
      Index.load disk (o.indexDirectory.getD root) (expectedHeader c s) (snapOptions s) = .ok (some old) →
      Sampled c disk old)
    (hopen : (openPlanner s disk root o).result = .ok p₀) (hc : Consistent p₀.catalog disk)
    (hrun : Run (Reads p₀.catalog disk) p₀ p) :
    (∀ read, Reads p₀.catalog disk read → ∀ origin destination objective f,
      (p.route read origin destination objective).result = .error f → ¬ f.IsIntegrity) ∧
    ∀ e ∈ p₀.index.entries, ∀ cell : Cell, cell.raw = e.partition →
      p.holding.loader.loaded.contains cell →
      InPlace (stockOf p₀.catalog disk) p.holding.network e := by
  obtain ⟨c, ix, -, hs, rfl⟩ := openPlanner_sampled harchive hopen
  exact (grounded_planner s o.guided hc hs).integrity hrun

end Planner

/-! ## A dataset of one junction -/

namespace Sole

def cell : Cell := ⟨0x8001fffffffffff, by decide +kernel⟩

def catalog : Catalog := ⟨⟨[]⟩, cell.resolution, (∅ : CellSet).insert cell⟩

/-- The only junction. -/
def junction : Junction Point := ⟨1, ⟨0.5, 0.5⟩⟩

/-- The table of some junctions; there is none of roads. -/
def tableOf (js : List (Junction Point)) : Disk :=
  (Store.Files.empty.put ["nodes_h3_0"] .directory).put ["nodes_h3_0", "h3_8001fffffffffff.parquet"]
    (.file (.table (Dataset.junctionTable js)))

def files : Disk := tableOf [junction]

def entry : Entry := ⟨1, ⟨0.5, 0.5⟩, 0x8001fffffffffff⟩

def index : Index := .ofPacked [entry] ⟨1, 0, 1, 0, 1, 0⟩ ⟨10, 10, 6⟩

theorem index_eq : Index.ofEntries [entry] ⟨1, 0, 1, 0, 1, 0⟩ ⟨10, 10, 6⟩ = .ok index :=
  Index.ofEntries_of_isPackable (Snap.isPackable_iff.2 (.inl (by decide)))

theorem fileName_cell : Dataset.fileName cell = "h3_8001fffffffffff.parquet" := by decide +kernel

theorem junctions_eq (js : List (Junction Point)) :
    Dataset.rowsIfThere (tableOf js) (Dataset.readJunctions Dataset.batchSize) (catalog.junctionFile cell) =
      .ok js := by
  have hfile : catalog.junctionFile cell = ⟨["nodes_h3_0", "h3_8001fffffffffff.parquet"]⟩ := by
    unfold Catalog.junctionFile
    rw [fileName_cell]
    decide +kernel
  have hitem : (tableOf js).item? (catalog.junctionFile cell) =
      some (.file (.table (Dataset.junctionTable js))) := by
    rw [hfile]
    simp [Store.Files.item?, Store.Files.locate?, tableOf, Store.Files.at?_put, Store.Files.passes,
      Store.Files.hasDirectory, Path.isUsable, Path.isName, Path.location, Path.move, Path.isIdle]
    rw [if_pos (by decide +kernel), Option.bind_some, if_neg (by simp), if_pos rfl]
  exact Dataset.rowsIfThere_of_item? hitem (Dataset.readJunctions_junctionTable (by decide) _)

theorem roads_eq :
    Dataset.rowsIfThere files (Dataset.readRoads Dataset.batchSize) (catalog.roadFile cell) = .ok [] := by
  have hfile : catalog.roadFile cell = ⟨["edges_h3_0", "h3_8001fffffffffff.parquet"]⟩ := by
    unfold Catalog.roadFile
    rw [fileName_cell]
    decide +kernel
  have hnone : files.hasDirectory ["edges_h3_0"] = false := by
    simp only [Store.Files.hasDirectory, files, tableOf, Store.Files.at?_put]
    simp [Store.Files.empty, Store.Files.at?]
  rw [hfile]
  simp [Dataset.rowsIfThere, Store.Files.isFile, Store.Files.read?, Store.Files.item?,
    Store.Files.locate?, Store.Files.passes, hnone, Path.move, Path.isIdle]

theorem toList_cells : catalog.cells.toList = [cell] := by decide +kernel

/-- The samples of a dataset with these junctions. -/
theorem sampleCatalog_of_junctions {disk : Disk} {js : List (Junction Point)}
    (h : Dataset.rowsIfThere disk (Dataset.readJunctions Dataset.batchSize) (catalog.junctionFile cell) =
      .ok js) (cap : Nat) (seed : UInt64) :
    sampleCatalog catalog disk cap seed = .ok (sampleJunctions cap seed cell js) := by
  unfold sampleCatalog samplePartition
  rw [toList_cells]
  simp only [List.mapM_cons, List.mapM_nil, h, bind, Except.bind, pure, Except.pure, List.flatten_cons,
    List.flatten_nil, List.append_nil]

theorem samples_eq : sampleCatalog catalog files 1 0 = .ok [entry] :=
  sampleCatalog_of_junctions (junctions_eq _) 1 0

theorem consistent : Consistent catalog files := by
  have hlist {id : Int64} {p : Point} (h : (stockOf catalog files).Lists id p) : p = ⟨0.5, 0.5⟩ := by
    obtain ⟨cell', hc, js, hjs, hmem⟩ := h
    have hcell : cell' ∈ catalog.cells.toList := Std.TreeSet.mem_toList.2 hc
    rw [toList_cells] at hcell
    obtain rfl := List.mem_singleton.1 hcell
    have hrows : (stockOf catalog files).junctions cell = some [junction] :=
      junctions_stockOf (junctions_eq [junction])
    rw [hrows] at hjs
    cases hjs
    cases List.mem_singleton.1 hmem
    rfl
  intro id p q hp hq
  rw [hlist hp, hlist hq]
  decide +kernel

/-- The planner after a request for the cell. -/
def loaded : Planner Float :=
  ((planner .standard catalog index none).ensure (catalog.read files) catalog.cells).2

theorem merge_partition (travel : Travel Float) : ∃ network,
    Holding.merge travel [⟨cell, [junction], []⟩] .empty .none =
      (.ok ⟨1, 0⟩, ⟨⟨(∅ : CellSet).insert cell, ∅, 0⟩, network⟩) := by
  simp [Holding.merge, applyAll, changesOf, Change.apply, Network.place, Network.empty, Network.lookup,
    Network.push, NodeId.invalid, Holding.empty, Tally.none]

theorem contains_loaded : loaded.holding.loader.loaded.contains cell := by
  have hread : catalog.read files cell = .ok ⟨cell, [junction], []⟩ :=
    Dataset.Catalog.read_eq_ok.2 ⟨rfl, junctions_eq [junction], roads_eq⟩
  have hpending : (Holding.empty : Holding Float Point).pending catalog.cells catalog.cells = [cell] := by
    decide +kernel
  have hnew : (Holding.empty : Holding Float Point).loader.answered.contains catalog.cells.toList =
      false := by
    simp [Holding.empty]
  unfold loaded Planner.ensure Holding.ensure
  simp only [planner, hnew, Planner.supply, hpending, List.mapM_cons, List.mapM_nil, hread, bind,
    Except.bind, pure, Except.pure]
  obtain ⟨network, hm⟩ :=
    merge_partition (Speed.Profile.ofReplacements Settings.standard.replacements).seconds
  simp [hm]

theorem integrity_of_loaded :
    (Consistent catalog files ∧ Sampled catalog files index ∧
      Planner.Run (Reads catalog files) (planner .standard catalog index none) loaded ∧
      loaded.holding.loader.loaded.contains cell) ∧
    (∀ read, Reads catalog files read → ∀ origin destination objective f,
      (loaded.route read origin destination objective).result = .error f → ¬ f.IsIntegrity) ∧
    InPlace (stockOf catalog files) loaded.holding.network entry := by
  have hs : Sampled catalog files index := .cold samples_eq index_eq
  have hrun : Planner.Run (Reads catalog files) (planner .standard catalog index none) loaded :=
    .ensure _ _ (fun _ _ _ h => h) .start
  have h := Planner.integrity_of_consistent consistent hs hrun
  exact ⟨⟨consistent, hs, hrun, contains_loaded⟩, h.1,
    h.2 entry (List.mem_singleton_self _) cell rfl contains_loaded⟩

end Sole
end RoadRouting.Trip
