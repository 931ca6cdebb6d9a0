import RoadRouting.Grid.Locate
import RoadRouting.Proofs.Dataset.Keys
import RoadRouting.Proofs.Network.Containment
import RoadRouting.Proofs.Trip.Requests
import RoadRouting.Speed.Profile

/-!
# The last row counts

What a network says of an identifier is what the last row says of it, in the order in which the
partitions came in (`LastWrites`): placeholders, numbers of nodes and classes, and edges that are
replaced in place do not show. This holds after any requests to a dataset, which may change on the
disk between them (`network_lastWrites`).
-/

namespace RoadRouting.Trip
set_option autoImplicit false
open Dataset (Catalog Junction Partition Road)
open Grid (Cell CellSet)
open Network (Link Quantity)
open Store (Disk Location Path)

variable {α π : Type}

/-- The links that a road makes, with the identifiers that they join: forwards, then backwards unless it
is one-way. -/
def linksOf (travel : Travel α) (r : Road α) : List ((Int64 × Int64) × Link α) :=
  let link : Link α := ⟨r.length, travel r.length r.className r.limit, r.className⟩
  ((r.source, r.target), link) :: (if r.oneWay then [] else [((r.target, r.source), link)])

/-- A road makes an edge from one identifier to another, forwards or backwards. -/
def Joins (r : Road α) (a b : Int64) : Prop :=
  (r.source = a ∧ r.target = b) ∨ (r.source = b ∧ r.target = a ∧ r.oneWay = false)

/-- A network says of identifiers what the rows of some partitions say, the last ones first. -/
structure LastWrites (travel : Travel α) (ps : List (Partition α π)) (g : Network α π) : Prop where
  wellFormed : g.WellFormed
  known : ∀ id, (g.lookup id).isSome ↔ ∃ p ∈ ps, (∃ j ∈ p.junctions, j.id = id) ∨
    ∃ r ∈ p.roads, r.source = id ∨ r.target = id
  placed : ∀ id, (g.positionOf id).isSome ↔ ∃ p ∈ ps, ∃ j ∈ p.junctions, j.id = id
  position : ∀ id, g.positionOf id =
    ((ps.flatMap (·.junctions)).filter (·.id = id)).getLast?.map (·.position)
  linked : ∀ a b, (g.linkOf a b).isSome ↔ ∃ p ∈ ps, ∃ r ∈ p.roads, Joins r a b
  link : ∀ a b, g.linkOf a b =
    (((ps.flatMap (·.roads)).flatMap (linksOf travel)).filter (·.1 = (a, b))).getLast?.map (·.2)

/-! ## Rows and changes -/

section Rows
variable (travel : Travel α) (ps : List (Partition α π))

theorem changesOfRoad_eq_map (r : Road α) : (changesOfRoad travel r : List (Change α π)) =
    (linksOf travel r).map fun l => .connect l.1.1 l.1.2 l.2.length l.2.travel l.2.className := by
  unfold changesOfRoad linksOf
  cases r.oneWay <;> rfl

/-- The positions that changes give are those of the junctions. -/
theorem filterMap_position? (id : Int64) : (ps.flatMap (changesOf travel)).filterMap (·.position? id) =
    ((ps.flatMap (·.junctions)).filter (·.id = id)).map (·.position) := by
  have hroads (rs : List (Road α)) :
      (rs.flatMap (changesOfRoad (π := π) travel)).filterMap (·.position? id) = [] := by
    simp only [changesOfRoad_eq_map, List.filterMap_flatMap, List.filterMap_map, Function.comp_def,
      Change.position?, List.filterMap_none]
    simp
  have hjunctions (js : List (Junction π)) :
      (js.map fun j => Change.place (α := α) j.id j.position).filterMap (·.position? id) =
        (js.filter (·.id = id)).map (·.position) := by
    rw [List.filterMap_map, ← List.filterMap_eq_map', List.filterMap_filter]
    simp only [Function.comp_def, Change.position?, decide_eq_true_eq]
  induction ps with
  | nil => rfl
  | cons p rest ih =>
    simp only [List.flatMap_cons, List.filterMap_append, List.filter_append, List.map_append, ih,
      changesOf, hjunctions, hroads, List.append_nil]

/-- The links that changes put are those of the roads. -/
theorem filterMap_link? (q : Int64 × Int64) : (ps.flatMap (changesOf travel)).filterMap (·.link? q) =
    (((ps.flatMap (·.roads)).flatMap (linksOf travel)).filter (·.1 = q)).map (·.2) := by
  have hroads (rs : List (Road α)) :
      (rs.flatMap (changesOfRoad (π := π) travel)).filterMap (·.link? q) =
        ((rs.flatMap (linksOf travel)).filter (·.1 = q)).map (·.2) := by
    rw [← List.filterMap_eq_map', List.filterMap_filter]
    simp only [changesOfRoad_eq_map, List.filterMap_flatMap, List.filterMap_map, Function.comp_def,
      Change.link?, decide_eq_true_eq]
  have hjunctions (js : List (Junction π)) :
      (js.map fun j => Change.place (α := α) j.id j.position).filterMap (·.link? q) = [] := by
    simp [Change.link?]
  induction ps with
  | nil => rfl
  | cons p rest ih =>
    simp only [List.flatMap_cons, List.filterMap_append, List.flatMap_append, List.filter_append,
      List.map_append, ih, changesOf, hjunctions, hroads, List.nil_append]

variable {travel ps}

theorem mem_linksOf (travel : Travel α) {r : Road α} {a b : Int64} : (∃ l ∈ linksOf travel r, l.1 = (a, b)) ↔
    Joins r a b := by
  unfold linksOf Joins
  cases r.oneWay with
  | true => simp
  | false => simp [and_comm (a := r.target = a)]

theorem exists_names {id : Int64} : (∃ c ∈ ps.flatMap (changesOf travel), c.Names id) ↔
    ∃ p ∈ ps, (∃ j ∈ p.junctions, j.id = id) ∨ ∃ r ∈ p.roads, r.source = id ∨ r.target = id := by
  have hroad (r : Road α) : (∃ c ∈ changesOfRoad (π := π) travel r, c.Names id) ↔
      r.source = id ∨ r.target = id := by
    unfold changesOfRoad
    cases r.oneWay with
    | true => simp [Change.Names]
    | false => simp [Change.Names, or_comm]
  constructor
  · rintro ⟨c, hc, hname⟩
    obtain ⟨p, hp, hc⟩ := List.mem_flatMap.1 hc
    refine ⟨p, hp, ?_⟩
    rcases List.mem_append.1 hc with hc | hc
    · obtain ⟨j, hj, rfl⟩ := List.mem_map.1 hc
      exact .inl ⟨j, hj, hname⟩
    · obtain ⟨r, hr, hc⟩ := List.mem_flatMap.1 hc
      exact .inr ⟨r, hr, (hroad r).1 ⟨c, hc, hname⟩⟩
  · rintro ⟨p, hp, ⟨j, hj, hid⟩ | ⟨r, hr, hid⟩⟩
    · refine ⟨.place j.id j.position, List.mem_flatMap.2 ⟨p, hp, ?_⟩, hid⟩
      exact List.mem_append_left _ (List.mem_map_of_mem hj)
    · obtain ⟨c, hc, hname⟩ := (hroad r).2 hid
      refine ⟨c, List.mem_flatMap.2 ⟨p, hp, ?_⟩, hname⟩
      exact List.mem_append_right _ (List.mem_flatMap.2 ⟨r, hr, hc⟩)

variable [Quantity α] {g : Network α π}

/-- A network that has made the changes of partitions says what their rows say. -/
theorem MakesAll.lastWrites (h : MakesAll (ps.flatMap (changesOf travel)) .empty g) :
    LastWrites travel ps g := by
  have hknown (id : Int64) : (g.lookup id).isSome ↔
      id ∈ (written (ps.flatMap (changesOf travel))).known := by
    rw [← h.chart]
    rfl
  have hposition (id : Int64) : g.positionOf id =
      ((ps.flatMap (·.junctions)).filter (·.id = id)).getLast?.map (·.position) := by
    have hchart : g.positionOf id = g.chart.position id := rfl
    rw [hchart, h.chart, position_written, ← List.getLast?_filterMap, filterMap_position?,
      List.getLast?_map]
  have hlink (a b : Int64) : g.linkOf a b =
      (((ps.flatMap (·.roads)).flatMap (linksOf travel)).filter (·.1 = (a, b))).getLast?.map (·.2) := by
    have hchart : g.linkOf a b = g.chart.link (a, b) := rfl
    rw [hchart, h.chart, link_written, ← List.getLast?_filterMap, filterMap_link?, List.getLast?_map]
  refine ⟨(h.grown .empty).wellFormed, ?_, ?_, hposition, ?_, hlink⟩
  · intro id
    rw [hknown, mem_known_written, exists_names]
  · intro id
    rw [hposition, Option.isSome_map, List.getLast?_filter, List.find?_isSome]
    simp only [List.mem_reverse, List.mem_flatMap, decide_eq_true_eq]
    constructor
    · rintro ⟨j, ⟨p, hp, hj⟩, hid⟩
      exact ⟨p, hp, j, hj, hid⟩
    · rintro ⟨p, hp, j, hj, hid⟩
      exact ⟨j, ⟨p, hp, hj⟩, hid⟩
  · intro a b
    rw [hlink, Option.isSome_map, List.getLast?_filter, List.find?_isSome]
    simp only [List.mem_reverse, List.mem_flatMap, decide_eq_true_eq]
    constructor
    · rintro ⟨l, ⟨r, ⟨p, hp, hr⟩, hl⟩, hq⟩
      exact ⟨p, hp, r, hr, (mem_linksOf travel).1 ⟨l, hl, hq⟩⟩
    · rintro ⟨p, hp, r, hr, hends⟩
      obtain ⟨l, hl, hq⟩ := (mem_linksOf travel).2 hends
      exact ⟨l, ⟨r, ⟨p, hp, hr⟩, hl⟩, hq⟩

/-- What the edges of a road cost under an objective. -/
def roadCost (travel : Travel α) (objective : Objective) (r : Road α) : α :=
  match objective with
  | .time => travel r.length r.className r.limit
  | .distance => r.length

omit [Quantity α] in
theorem cost_of_mem_linksOf {r : Road α} {l : (Int64 × Int64) × Link α} (hl : l ∈ linksOf travel r)
    (objective : Objective) : l.2.cost objective = roadCost travel objective r := by
  have hlink : l.2 = ⟨r.length, travel r.length r.className r.limit, r.className⟩ := by
    unfold linksOf at hl
    rcases List.mem_cons.1 hl with rfl | hl
    · rfl
    · split at hl
      · cases hl
      · rw [List.mem_singleton.1 hl]
  rw [hlink]
  cases objective <;> rfl

omit [Quantity α] in
/-- Every edge costs what some road costs. -/
theorem LastWrites.exists_road (h : LastWrites travel ps g) {v : Network.NodeId} {e : Network.Edge α}
    (he : e ∈ g.out v) : ∃ p ∈ ps, ∃ r ∈ p.roads, ∀ o, e.cost o = roadCost travel o r := by
  obtain ⟨a, ha⟩ := h.wellFormed.exists_lookup (Network.index_lt_of_mem_out he)
  obtain ⟨b, l, -, hl, hcost⟩ := h.wellFormed.exists_link he ha
  rw [h.link] at hl
  obtain ⟨row, hrow, rfl⟩ := Option.map_eq_some_iff.1 hl
  obtain ⟨hmem, -⟩ := List.mem_filter.1 (List.mem_of_getLast? hrow)
  obtain ⟨r, hr, hlinks⟩ := List.mem_flatMap.1 hmem
  obtain ⟨p, hp, hr⟩ := List.mem_flatMap.1 hr
  exact ⟨p, hp, r, hr, fun o => (hcost o).symm.trans (cost_of_mem_linksOf hlinks o)⟩

end Rows

/-- After any requests that meet no full network, the partitions that came in are the ones that are
loaded, and the network says what the last of their rows say. -/
theorem network_lastWrites (c : Catalog) (speeds : Speed.Profile) (calls : List (Disk × CellSet))
    (hroom : Roomy c.cells speeds.seconds (calls.map (requestTo c))) :
    (∀ cell, (held c.cells speeds.seconds (calls.map (requestTo c))).loader.loaded.contains cell ↔
      ∃ p ∈ loadOrder c.cells (calls.map (requestTo c)), p.cell = cell) ∧
    LastWrites speeds.seconds (loadOrder c.cells (calls.map (requestTo c)))
      (held c.cells speeds.seconds (calls.map (requestTo c))).network := by
  have hkept := kept hroom
  refine ⟨?_, hkept.made.lastWrites⟩
  intro cell
  rw [hkept.loaded, List.mem_map]

/-! ## A dataset of two partitions -/

namespace Pair

def west : Cell := ⟨0x8003fffffffffff, by decide +kernel⟩

def east : Cell := ⟨0x8005fffffffffff, by decide +kernel⟩

def catalog : Catalog := .ofCells ⟨[]⟩ west.resolution [west, east]

/-- Two junctions, and a road that leads across the border and back. -/
def westPart : Partition Float Point :=
  ⟨west, [⟨1, ⟨0.5, 0.5⟩⟩, ⟨3, ⟨0.5, 0.25⟩⟩], [⟨1, 2, 100.0, "primary", none, false⟩]⟩

/-- A road that runs against the other one, and a junction that the other partition has elsewhere. -/
def eastPart : Partition Float Point :=
  ⟨east, [⟨2, ⟨0.25, 0.75⟩⟩, ⟨3, ⟨0.5, 0.75⟩⟩], [⟨2, 1, 80.0, "service", none, true⟩]⟩

/-- A disk with one more document in a directory. -/
def put (disk : Disk) (directory : String) (cell : Cell) (d : Store.Document) : Disk :=
  disk.put [directory, Dataset.fileName cell] (.file d)

/-- The disk with the tables of two partitions. -/
def files (w e : Partition Float Point) : Disk :=
  put (put (put (put
    ((Store.Files.empty.put ["nodes_h3_0"] .directory).put ["edges_h3_0"] .directory)
    "nodes_h3_0" west (.table (Dataset.junctionTable w.junctions)))
    "nodes_h3_0" east (.table (Dataset.junctionTable e.junctions)))
    "edges_h3_0" west (.table (Dataset.roadTable w.roads)))
    "edges_h3_0" east (.table (Dataset.roadTable e.roads))

/-- The same with a file that is no table. -/
def broken : Disk := put (files westPart eastPart) "edges_h3_0" west (.text "")

theorem west_ne_east : west ≠ east := by decide +kernel

theorem fileName_ne : Dataset.fileName west ≠ Dataset.fileName east :=
  fun h => west_ne_east (Dataset.fileName_injective h)

/-- Where the tables of a partition lie on a disk with their directories. -/
theorem item?_table {disk : Disk} (hn : disk.hasDirectory ["nodes_h3_0"])
    (he : disk.hasDirectory ["edges_h3_0"]) (cell : Cell) :
    disk.item? (catalog.junctionFile cell) = disk.at? ["nodes_h3_0", Dataset.fileName cell] ∧
      disk.item? (catalog.roadFile cell) = disk.at? ["edges_h3_0", Dataset.fileName cell] := by
  have hroot := disk.isDirectory_root
  have hitem {name : String} (hname : Path.Names name) (hd : disk.hasDirectory [name]) :
      disk.item? ((Path.child ⟨[]⟩ name).child (Dataset.fileName cell)) =
        disk.at? [name, Dataset.fileName cell] := by
    have hthere : disk.isDirectory (Path.child ⟨[]⟩ name) := by
      rw [Store.Files.isDirectory_child hroot hname]
      exact hd
    rw [Store.Files.item?_child hthere (Dataset.names_fileName cell), Path.location_child _ hname]
    rfl
  have hnodes : "nodes_h3_" ++ toString west.resolution.val = "nodes_h3_0" := by decide +kernel
  have hedges : "edges_h3_" ++ toString west.resolution.val = "edges_h3_0" := by decide +kernel
  rw [← hnodes] at hn ⊢
  rw [← hedges] at he ⊢
  exact ⟨hitem (Dataset.names_junctionDirectory _) hn, hitem (Dataset.names_roadDirectory _) he⟩

theorem hasDirectory_files (w e : Partition Float Point) :
    (files w e).hasDirectory ["nodes_h3_0"] ∧ (files w e).hasDirectory ["edges_h3_0"] := by
  simp [files, put, Store.Files.hasDirectory, Store.Files.at?_put]

/-- The partitions are read back. -/
theorem read_files {w e : Partition Float Point} (hw : w.cell = west) (he : e.cell = east)
    (hwest : ∀ r ∈ w.roads, Dataset.isLength r.length)
    (heast : ∀ r ∈ e.roads, Dataset.isLength r.length) :
    catalog.read (files w e) west = .ok w ∧ catalog.read (files w e) east = .ok e := by
  obtain ⟨hn, hr⟩ := hasDirectory_files w e
  obtain ⟨hwj, hwr⟩ := item?_table hn hr west
  obtain ⟨hej, her⟩ := item?_table hn hr east
  refine ⟨Catalog.read_eq_ok.2 ⟨hw, ?_, ?_⟩, Catalog.read_eq_ok.2 ⟨he, ?_, ?_⟩⟩
  · refine Dataset.rowsIfThere_of_item? (hwj.trans ?_)
      (Dataset.readJunctions_junctionTable (by decide) _)
    simp [files, put, Store.Files.at?_put, fileName_ne.symm]
  · refine Dataset.rowsIfThere_of_item? (hwr.trans ?_) (Dataset.readRoads_roadTable (by decide) hwest)
    simp [files, put, Store.Files.at?_put, fileName_ne.symm]
  · refine Dataset.rowsIfThere_of_item? (hej.trans ?_)
      (Dataset.readJunctions_junctionTable (by decide) _)
    simp [files, put, Store.Files.at?_put, fileName_ne]
  · refine Dataset.rowsIfThere_of_item? (her.trans ?_) (Dataset.readRoads_roadTable (by decide) heast)
    simp [files, put, Store.Files.at?_put]

theorem read_broken : catalog.read broken west = .error .noTable := by
  have hdirectories : broken.hasDirectory ["nodes_h3_0"] ∧ broken.hasDirectory ["edges_h3_0"] := by
    simp [broken, files, put, Store.Files.hasDirectory, Store.Files.at?_put]
  obtain ⟨hjunctions, hroads⟩ := item?_table hdirectories.1 hdirectories.2 west
  have hfirst : Dataset.rowsIfThere broken (Dataset.readJunctions Dataset.batchSize)
      (catalog.junctionFile west) = .ok westPart.junctions := by
    refine Dataset.rowsIfThere_of_item? (hjunctions.trans ?_)
      (Dataset.readJunctions_junctionTable (by decide) _)
    simp [broken, files, put, Store.Files.at?_put, fileName_ne.symm]
  have hsecond : broken.item? (catalog.roadFile west) = some (.file (.text "")) := by
    rw [hroads]
    simp [broken, put, Store.Files.at?_put]
  have hbad : Dataset.rowsIfThere broken (Dataset.readRoads Dataset.batchSize) (catalog.roadFile west) =
      .error .noTable := by
    simp [Dataset.rowsIfThere, Dataset.rowsIn, Store.Files.isFile, Store.Files.read?, hsecond]
  unfold Catalog.read
  rw [hfirst, hbad]
  rfl

theorem toList_cells : catalog.cells.toList = [west, east] := by decide +kernel

theorem toList_one (cell : Cell) : ((∅ : CellSet).insert cell).toList = [cell] := by
  have hperm : ((∅ : CellSet).insert cell).toList.Perm _ := Std.TreeSet.toList_insert_perm
  rw [if_neg Std.TreeSet.not_mem_emptyc, show (∅ : CellSet).toList = [] from rfl] at hperm
  exact List.perm_singleton.1 hperm

theorem toList_east : ((∅ : CellSet).insert east).toList = [east] := toList_one east

theorem mem_cells {cell : Cell} : cell ∈ catalog.cells ↔ cell = west ∨ cell = east := by
  rw [← Std.TreeSet.mem_toList, toList_cells]
  simp

theorem missing_east (disk : Disk) :
    missing catalog.cells ([] : List (Partition Float Point))
      (requestTo catalog (disk, (∅ : CellSet).insert east)) = [east] := by
  simp [missing, requestTo, toList_east, mem_cells]

theorem missing_west {e : Partition Float Point} (he : e.cell = east) (disk : Disk) :
    missing catalog.cells [e] (requestTo catalog (disk, catalog.cells)) = [west] := by
  simp [missing, requestTo, toList_cells, mem_cells, he, west_ne_east]

section Files
variable {w e : Partition Float Point} (hw : w.cell = west) (he : e.cell = east)
  (hwest : ∀ r ∈ w.roads, Dataset.isLength r.length) (heast : ∀ r ∈ e.roads, Dataset.isLength r.length)
include hw he hwest heast

theorem read_of_listed {cell : Cell} (hcell : catalog.cells.contains cell) :
    catalog.read (files w e) cell = .ok (if cell = west then w else e) := by
  obtain ⟨hreadWest, hreadEast⟩ := read_files hw he hwest heast
  rcases mem_cells.1 hcell with rfl | rfl
  · rw [hreadWest, if_pos rfl]
  · rw [hreadEast, if_neg (Ne.symm west_ne_east)]

/-- When the eastern partition is asked for first, it comes in first. -/
theorem loadOrder_east_first :
    loadOrder catalog.cells ([(∅ : CellSet).insert east, catalog.cells].map fun k =>
      requestTo catalog (files w e, k)) = [e, w] := by
  obtain ⟨hreadWest, hreadEast⟩ := read_files hw he hwest heast
  have hfirst : additions catalog.cells []
      (requestTo catalog (files w e, (∅ : CellSet).insert east)) = [e] :=
    additions_of_one (missing_east _) hreadEast
  have hsecond : additions catalog.cells [e] (requestTo catalog (files w e, catalog.cells)) = [w] :=
    additions_of_one (missing_west he _) hreadWest
  simp only [loadOrder, List.map_cons, List.map_nil, List.foldl_cons, List.foldl_nil, List.nil_append,
    hfirst, hsecond, List.singleton_append]

/-- The rows of two partitions never fill a network, if there are few of them. -/
theorem roomy_files {travel : Travel Float}
    (hroom : HasRoom (.empty : Network Float Point) (2 * ([w, e].flatMap (changesOf travel)).length)
      ([w, e].flatMap (changesOf travel)).length) (keys : List CellSet) :
    Roomy catalog.cells travel (keys.map fun k => requestTo catalog (files w e, k)) := by
  refine roomy_of_few [w, e] (fun r hr cell p hcell hread => ?_) hroom
  obtain ⟨k, -, rfl⟩ := List.mem_map.1 hr
  have hread : catalog.read (files w e) cell = .ok p := hread
  rw [read_of_listed hw he hwest heast hcell] at hread
  cases hread
  split
  · simp
  · simp

end Files

/-- The second of these requests fails and the last one was made before. -/
def calls : List (Disk × CellSet) :=
  [(files westPart eastPart, (∅ : CellSet).insert east), (broken, catalog.cells),
    (files westPart eastPart, catalog.cells), (files westPart eastPart, (∅ : CellSet).insert east)]

/-- The eastern partition comes in first, though its cell is the last one. -/
theorem loadOrder_calls :
    loadOrder catalog.cells (calls.map (requestTo catalog)) = [eastPart, westPart] := by
  obtain ⟨hreadWest, hreadEast⟩ := read_files (w := westPart) (e := eastPart) rfl rfl
    (by decide +kernel) (by decide +kernel)
  have hcell : eastPart.cell = east := rfl
  have hlast : missing catalog.cells [eastPart, westPart]
      (requestTo catalog (files westPart eastPart, (∅ : CellSet).insert east)) = [] := by
    simp [missing, requestTo, toList_east, hcell]
  have h1 : additions catalog.cells []
      (requestTo catalog (files westPart eastPart, (∅ : CellSet).insert east)) = [eastPart] :=
    additions_of_one (missing_east _) hreadEast
  have h2 : additions catalog.cells [eastPart] (requestTo catalog (broken, catalog.cells)) = [] := by
    unfold additions
    rw [missing_west hcell]
    simp [requestTo, read_broken, List.mapM_cons, bind, Except.bind]
  have h3 : additions catalog.cells [eastPart]
      (requestTo catalog (files westPart eastPart, catalog.cells)) = [westPart] :=
    additions_of_one (missing_west hcell _) hreadWest
  have h4 : additions catalog.cells [eastPart, westPart]
      (requestTo catalog (files westPart eastPart, (∅ : CellSet).insert east)) = [] := by
    unfold additions
    rw [hlast]
    rfl
  have hnone : loadOrder catalog.cells ([] : List (Request Dataset.Fault Float Point)) = [] := rfl
  have hsteps : calls.map (requestTo catalog) =
      [] ++ [requestTo catalog (files westPart eastPart, (∅ : CellSet).insert east)] ++
        [requestTo catalog (broken, catalog.cells)] ++
        [requestTo catalog (files westPart eastPart, catalog.cells)] ++
        [requestTo catalog (files westPart eastPart, (∅ : CellSet).insert east)] := rfl
  rw [hsteps, loadOrder_snoc, loadOrder_snoc, loadOrder_snoc, loadOrder_snoc, hnone, h1,
    List.nil_append, h2, List.append_nil, h3, List.singleton_append, h4, List.append_nil]

theorem roomy_calls (travel : Travel Float) :
    Roomy catalog.cells travel (calls.map (requestTo catalog)) := by
  refine (roomy_of_hasRoom (n := 0) (k := 0) ?_).1
  rw [loadOrder_calls]
  have hlength : ([eastPart, westPart].flatMap (changesOf travel)).length = 7 := rfl
  rw [hlength]
  exact ⟨by decide, by decide⟩

theorem network_lastWrites_calls :
    Roomy catalog.cells Speed.Profile.standard.seconds (calls.map (requestTo catalog)) ∧
    (∀ cell, (held catalog.cells Speed.Profile.standard.seconds
        (calls.map (requestTo catalog))).loader.loaded.contains cell ↔
      ∃ p ∈ [eastPart, westPart], p.cell = cell) ∧
    LastWrites Speed.Profile.standard.seconds [eastPart, westPart]
      (held catalog.cells Speed.Profile.standard.seconds (calls.map (requestTo catalog))).network := by
  have h := network_lastWrites catalog .standard calls (roomy_calls _)
  rw [loadOrder_calls] at h
  exact ⟨roomy_calls _, h⟩

/-! ### Where a route can begin -/

/-- The cell of a point of which the other modules plan routes. -/
@[irreducible]
def home : Cell := (Cell.containing ⟨0.5, 0.5⟩ west.resolution).getD west

/-- The dataset of this cell alone. -/
def homeCatalog : Catalog := ⟨⟨[]⟩, west.resolution, (∅ : CellSet).insert home⟩

theorem mem_home {cell : Cell} : cell ∈ homeCatalog.cells ↔ cell = home := by
  rw [← Std.TreeSet.mem_toList]
  show cell ∈ ((∅ : CellSet).insert home).toList ↔ _
  rw [toList_one, List.mem_singleton]

/-- Another cell. -/
def away : Cell := if home = west then east else west

theorem away_ne_home : away ≠ home := by
  unfold away
  by_cases h : home = west
  · rw [if_pos h, h]
    exact west_ne_east.symm
  · rw [if_neg h]
    exact Ne.symm h

/-- The dataset of both cells. -/
def awayCatalog : Catalog := ⟨⟨[]⟩, west.resolution, ((∅ : CellSet).insert home).insert away⟩

theorem mem_away {cell : Cell} : cell ∈ awayCatalog.cells ↔ cell = home ∨ cell = away := by
  show cell ∈ homeCatalog.cells.insert away ↔ _
  rw [Std.TreeSet.mem_insert, Std.LawfulEqCmp.compare_eq_iff_eq, mem_home, or_comm, eq_comm (a := away)]

theorem containing_home : Cell.containing ⟨0.5, 0.5⟩ west.resolution = some home := by
  have hvalid : (⟨0.5, 0.5⟩ : Point).isValid := by decide +kernel
  obtain ⟨cell, hcell⟩ := Option.isSome_iff_exists.1 (Cell.isSome_containing hvalid west.resolution)
  unfold home
  rw [hcell]
  rfl

end Pair

end RoadRouting.Trip
