import RoadRouting.Proofs.Dataset.Tables
import RoadRouting.Proofs.Dataset.Unchanged

/-!
# What a catalog finds

A manifest that names no cells leaves it to the names in the junction directory. They are read freely: any
spelling of a cell announces it, and so does the name of a directory (`Spelled`), while a table is read by
the one name that its cell has. So a catalog announces all cells that have a table, and those besides that
are only spelled (`Discovers`).
-/

namespace RoadRouting.Dataset
set_option autoImplicit false
open Store (Path Disk Document)
open Grid (Cell CellSet Resolution)

/-! ## Names of tables -/

/-- The name of a table for a cell that is spelled in some way. -/
def tableName (spelling : String) : String :=
  String.ofList (fileStart ++ spelling.toList ++ '.' :: fileEnding)

theorem tableName_injective {a b : String} (h : tableName a = tableName b) : a = b := by
  have hlist := congrArg String.toList h
  rw [tableName, tableName, String.toList_ofList, String.toList_ofList] at hlist
  exact String.toList_injective (List.append_cancel_left (List.append_cancel_right hlist))

/-- What follows the last point is the ending. -/
theorem splitName_append {stem ending : List Char} (hstem : stem ≠ []) (hending : '.' ∉ ending) :
    splitName (stem ++ '.' :: ending) = (stem, some ending) := by
  have hkept : ∀ c ∈ ending.reverse, decide (c ≠ '.') = true := by
    intro c hc
    refine decide_eq_true ?_
    rintro rfl
    exact hending (List.mem_reverse.1 hc)
  have hlast : ((stem ++ '.' :: ending).reverse.takeWhile (· ≠ '.')).reverse = ending := by
    rw [List.reverse_append, List.reverse_cons, List.append_assoc, List.takeWhile_append_of_pos hkept]
    simp
  have hbefore : (stem ++ '.' :: ending).take
      ((stem ++ '.' :: ending).length - ending.length - 1) = stem := by
    have hlength : (stem ++ '.' :: ending).length - ending.length - 1 = stem.length := by
      rw [List.length_append, List.length_cons]
      omega
    rw [hlength, List.take_left]
  unfold splitName
  simp only [hlast, hbefore]
  simp [hstem]
  omega

theorem splitName_eq_some {name stem ending : List Char} (h : splitName name = (stem, some ending)) :
    name = stem ++ '.' :: ending := by
  unfold splitName at h
  simp only at h
  split at h
  · cases h
  · rename_i hshort
    obtain ⟨hstem, hending⟩ := Prod.mk.inj h
    have hending := Option.some.inj hending
    rw [hending] at hshort hstem
    have hsplit := List.takeWhile_append_dropWhile (p := fun c => decide (c ≠ '.')) (l := name.reverse)
    have hname : name = (name.reverse.dropWhile fun c => decide (c ≠ '.')).reverse ++ ending := by
      rw [← hending, ← List.reverse_append, hsplit, List.reverse_reverse]
    cases hrest : name.reverse.dropWhile fun c => decide (c ≠ '.') with
    | nil =>
      rw [hrest] at hname
      simp [hname] at hshort
    | cons c rest =>
      have hpoint : c = '.' := by
        have hfirst := List.head?_dropWhile_not (fun c => decide (c ≠ '.')) name.reverse
        rw [hrest] at hfirst
        simpa using hfirst
      rw [hrest, List.reverse_cons, hpoint, List.append_assoc] at hname
      have hlength : name.length - ending.length - 1 = rest.reverse.length := by
        rw [hname]
        simp
        omega
      rw [hlength, hname, List.take_left] at hstem
      rw [hname, hstem]
      rfl

/-- The names of tables are those that say something of a cell. -/
theorem cellPart?_eq_some_iff {name spelling : String} :
    cellPart? name = some spelling ↔ name = tableName spelling := by
  constructor
  · intro h
    unfold cellPart? at h
    rcases hsplit : splitName name.toList with ⟨stem, ending⟩
    simp only [hsplit] at h
    split at h
    · rename_i hboth
      rw [Bool.and_eq_true, decide_eq_true_eq] at hboth
      obtain ⟨hending, hstart⟩ := hboth
      obtain ⟨rest, hrest⟩ := List.isPrefixOf_iff_prefix.1 hstart
      have hspelling := Option.some.inj h
      rw [← hrest, List.drop_left] at hspelling
      have hlist := splitName_eq_some (hending ▸ hsplit)
      rw [← hspelling, tableName, String.toList_ofList, hrest, ← hlist, String.ofList_toList]
    · cases h
  · rintro rfl
    have hsplit : splitName (tableName spelling).toList =
        (fileStart ++ spelling.toList, some fileEnding) := by
      rw [tableName, String.toList_ofList]
      exact splitName_append (by simp [fileStart]) (by decide)
    have hstart : fileStart.isPrefixOf (fileStart ++ spelling.toList) :=
      List.isPrefixOf_iff_prefix.2 (List.prefix_append _ _)
    unfold cellPart?
    simp only [hsplit, hstart, decide_true, Bool.and_self, if_true, List.drop_left, String.ofList_toList]

/-! ## Keys -/

namespace Catalog

/-- What a catalog is once some keys have been added to it. -/
structure Gathers (keys : List String) (c c' : Catalog) : Prop where
  root : c'.root = c.root
  resolution : c'.resolution = c.resolution
  named : ∀ key ∈ keys, ∃ cell, Cell.fromText key = .ok cell ∧ cell.resolution = c.resolution
  contains : ∀ cell, c'.cells.contains cell ↔
    c.cells.contains cell ∨ ∃ key ∈ keys, Cell.fromText key = .ok cell

variable {keys : List String} {key : String} {c c' : Catalog}

theorem addKey_eq_ok : c.addKey key = .ok c' ↔ ∃ cell, Cell.fromText key = .ok cell ∧
    cell.resolution = c.resolution ∧ c' = { c with cells := c.cells.insert cell } := by
  unfold addKey readKey
  cases Cell.fromText key with
  | error refusal => simp
  | ok cell =>
    by_cases hr : cell.resolution = c.resolution
    · simp [hr, eq_comm]
    · simp [hr]

theorem gathers_of_foldlM (h : keys.foldlM addKey c = .ok c') : Gathers keys c c' := by
  induction keys generalizing c with
  | nil =>
    cases h
    exact ⟨rfl, rfl, nofun, by simp⟩
  | cons key rest ih =>
    rw [List.foldlM_cons, bind_eq_ok] at h
    obtain ⟨next, hkey, hrest⟩ := h
    obtain ⟨cell, hcell, hr, rfl⟩ := addKey_eq_ok.1 hkey
    obtain ⟨hroot, hresolution, hnamed, hcontains⟩ := ih hrest
    refine ⟨hroot, hresolution, List.forall_mem_cons.2 ⟨⟨cell, hcell, hr⟩, hnamed⟩, fun x => ?_⟩
    have hfirst : Cell.fromText key = .ok x ↔ cell = x := by rw [hcell, Except.ok.injEq]
    rw [hcontains, Std.TreeSet.contains_insert, Bool.or_eq_true, beq_iff_eq,
      Std.LawfulEqCmp.compare_eq_iff_eq, List.exists_mem_cons_iff, hfirst, or_assoc,
      or_left_comm]

/-- Keys that name cells of the resolution are all added. -/
theorem exists_foldlM_addKey
    (h : ∀ key ∈ keys, ∃ cell, Cell.fromText key = .ok cell ∧ cell.resolution = c.resolution) :
    ∃ c', keys.foldlM addKey c = .ok c' := by
  induction keys generalizing c with
  | nil => exact ⟨c, rfl⟩
  | cons key rest ih =>
    obtain ⟨cell, hcell, hr⟩ := h key List.mem_cons_self
    have hkey := addKey_eq_ok.2 ⟨cell, hcell, hr, rfl⟩
    rw [List.foldlM_cons, hkey]
    exact ih fun other hother => h other (List.mem_cons_of_mem _ hother)

/-! ## What is found -/

section Found
variable {disk : Disk} {root : Path} {r : Resolution} {n : Nat} {cell : Cell}

/-- The junction directory lists a table whose name spells the cell. -/
def Spelled (disk : Disk) (c : Catalog) (cell : Cell) : Prop :=
  ∃ spelling, tableName spelling ∈ disk.names (junctionDirectory c.root c.resolution) ∧
    Cell.fromText spelling = .ok cell

/-- A catalog announces the cells of its resolution that have a table of junctions, and no others. -/
def Exact (disk : Disk) (c : Catalog) : Prop :=
  ∀ cell, cell.resolution = c.resolution → (c.cells.contains cell ↔ disk.isFile (c.junctionFile cell))

/-- What a catalog finds that looks at the names of tables. -/
structure Discovers (disk : Disk) (c : Catalog) : Prop where
  resolution : ∀ cell, c.cells.contains cell → cell.resolution = c.resolution
  /-- Announced is what is spelled. -/
  announced : ∀ cell, c.cells.contains cell ↔ Spelled disk c cell
  /-- No table is missed. -/
  complete : ∀ cell, disk.isFile (c.junctionFile cell) → c.cells.contains cell
  /-- Where there is no table, no junction is read, and nothing is wrong. -/
  vain : ∀ cell part, ¬ disk.isFile (c.junctionFile cell) → c.read disk cell = .ok part →
    part.junctions = []
  /-- Only cells that are spelled and have no table are announced in vain. -/
  exact_iff : c.Exact disk ↔ ∀ cell, Spelled disk c cell → disk.isFile (c.junctionFile cell)
  /-- None is where all tables are files that have the names of their cells. -/
  canonical : (∀ spelling, tableName spelling ∈ disk.names (junctionDirectory c.root c.resolution) →
    ∃ cell, spelling = cell.text ∧ disk.isFile (c.junctionFile cell)) → c.Exact disk

theorem mem_scan {spelling : String} : spelling ∈ scan disk root r ↔
    tableName spelling ∈ disk.names (junctionDirectory root r) := by
  simp [scan, List.mem_filterMap, cellPart?_eq_some_iff]

theorem spelled_of_isFile (h : disk.isFile (c.junctionFile cell)) : Spelled disk c cell :=
  ⟨cell.text, Store.Files.names_of_isFile (names_fileName cell) h, Cell.fromText_text cell⟩

theorem junctions_eq_nil {part : Partition Float Point} (hnone : ¬ disk.isFile (c.junctionFile cell))
    (h : c.read disk cell = .ok part) : part.junctions = [] := by
  obtain ⟨-, hjunctions, -⟩ := read_eq_ok.1 h
  rw [rowsIfThere, if_neg hnone] at hjunctions
  exact (Except.ok.inj hjunctions).symm

/-- A manifest that names no cells leaves it to the names of the tables. -/
theorem load_of_unnamed (hm : readManifest disk root = .ok ⟨n, none⟩) : load disk root =
    if h : n < 16 then (scan disk root ⟨n, h⟩).foldlM addKey ⟨root, ⟨n, h⟩, ∅⟩
    else .error (.resolution n) := by
  unfold load
  rw [hm]
  rfl

/-- A catalog that is loaded has gathered the keys that are spelled. -/
theorem gathers_of_load (hm : readManifest disk root = .ok ⟨n, none⟩) (hc : load disk root = .ok c) :
    ∃ hn : n < 16, Gathers (scan disk root ⟨n, hn⟩) ⟨root, ⟨n, hn⟩, ∅⟩ c := by
  rw [load_of_unnamed hm] at hc
  split at hc
  · exact ⟨_, gathers_of_foldlM hc⟩
  · cases hc

theorem contains_iff_spelled (hm : readManifest disk root = .ok ⟨n, none⟩) (hc : load disk root = .ok c) :
    c.cells.contains cell ↔ Spelled disk c cell := by
  obtain ⟨hn, h⟩ := gathers_of_load hm hc
  rw [h.contains, Spelled, h.root, h.resolution]
  simp [mem_scan]

theorem resolution_of_contains (hm : readManifest disk root = .ok ⟨n, none⟩)
    (hc : load disk root = .ok c) (hcell : c.cells.contains cell) : cell.resolution = c.resolution := by
  obtain ⟨spelling, hlisted, htext⟩ := (contains_iff_spelled hm hc).1 hcell
  obtain ⟨hn, h⟩ := gathers_of_load hm hc
  rw [h.root, h.resolution] at hlisted
  obtain ⟨other, hother, hr⟩ := h.named spelling (mem_scan.2 hlisted)
  rw [htext] at hother
  rw [h.resolution, Except.ok.inj hother, hr]

theorem discovers_of_load (hm : readManifest disk root = .ok ⟨n, none⟩) (hc : load disk root = .ok c) :
    Discovers disk c := by
  have hannounced (cell : Cell) : c.cells.contains cell ↔ Spelled disk c cell := contains_iff_spelled hm hc
  have hcomplete (cell : Cell) (hfile : disk.isFile (c.junctionFile cell)) : c.cells.contains cell :=
    (hannounced cell).2 (spelled_of_isFile hfile)
  have hexact : c.Exact disk ↔ ∀ cell, Spelled disk c cell → disk.isFile (c.junctionFile cell) := by
    constructor
    · intro h cell hspelled
      have hcell := (hannounced cell).2 hspelled
      exact (h cell (resolution_of_contains hm hc hcell)).1 hcell
    · exact fun h cell _ => ⟨fun hcell => h cell ((hannounced cell).1 hcell), hcomplete cell⟩
  refine ⟨fun _ => resolution_of_contains hm hc, hannounced, hcomplete, fun _ _ => junctions_eq_nil,
    hexact, fun h => ?_⟩
  refine hexact.2 fun cell ⟨spelling, hlisted, htext⟩ => ?_
  obtain ⟨other, rfl, hfile⟩ := h spelling hlisted
  rw [Cell.fromText_text] at htext
  rwa [← Except.ok.inj htext]

theorem exists_load_iff (hm : readManifest disk root = .ok ⟨n, none⟩) :
    (∃ c, load disk root = .ok c) ↔ ∃ h : n < 16, ∀ spelling,
      tableName spelling ∈ disk.names (junctionDirectory root ⟨n, h⟩) →
      ∃ cell, Cell.fromText spelling = .ok cell ∧ cell.resolution = ⟨n, h⟩ := by
  constructor
  · rintro ⟨c, hc⟩
    obtain ⟨hn, h⟩ := gathers_of_load hm hc
    exact ⟨hn, fun spelling hlisted => h.named spelling (mem_scan.2 hlisted)⟩
  · rintro ⟨hn, h⟩
    rw [load_of_unnamed hm, dif_pos hn]
    exact exists_foldlM_addKey fun key hkey => h key (mem_scan.1 hkey)

/-- A catalog that looks at the names of tables is loaded if each of them spells a cell of the resolution.
It announces the cells that are spelled, so all that have a table. -/
theorem load_discovers (hm : readManifest disk root = .ok ⟨n, none⟩) :
    ((∃ c, load disk root = .ok c) ↔ ∃ h : n < 16, ∀ spelling,
      tableName spelling ∈ disk.names (junctionDirectory root ⟨n, h⟩) →
      ∃ cell, Cell.fromText spelling = .ok cell ∧ cell.resolution = ⟨n, h⟩) ∧
    ∀ c, load disk root = .ok c → Discovers disk c :=
  ⟨exists_load_iff hm, fun _ => discovers_of_load hm⟩

end Found
end Catalog

/-! ## A junction directory with a table and with what looks like one -/

namespace Lookalikes

/-- A cell with a table. -/
def stored : Cell := ⟨0x8011fffffffffff, by decide +kernel⟩

/-- A cell with a table whose name is in capitals. -/
def loud : Cell := ⟨0x801bfffffffffff, by decide +kernel⟩

/-- A cell with a directory in place of its table. -/
def folder : Cell := ⟨0x8013fffffffffff, by decide +kernel⟩

def capitals : String := "801BFFFFFFFFFFF"

def manifest : Json := .object [(some "resolution_level", .nat 0)]

def table : Store.Item Document := .file (.table (junctionTable []))

/-- The dataset without what stands in its junction directory. -/
def base : Disk :=
  (Store.Files.empty.put [manifestName] (.file (.json manifest))).put ["nodes_h3_0"] .directory

def disk : Disk :=
  ((base.put ["nodes_h3_0", tableName stored.text] table).put ["nodes_h3_0", tableName capitals] table).put
    ["nodes_h3_0", tableName folder.text] .directory

theorem at?_entry (spelling : String) : disk.at? ["nodes_h3_0", tableName spelling] =
    if spelling = folder.text then some .directory
    else if spelling = capitals ∨ spelling = stored.text then some table
    else none := by
  have hinj {other : String} : tableName other = tableName spelling ↔ spelling = other :=
    ⟨fun h => (tableName_injective h).symm, fun h => congrArg tableName h.symm⟩
  simp only [disk, base, Store.Files.at?_put, List.cons.injEq, and_true, true_and, hinj]
  by_cases hfolder : spelling = folder.text
  · simp [hfolder]
  · by_cases hcapitals : spelling = capitals
    · simp [hcapitals]
    · by_cases hstored : spelling = stored.text
      · simp [hstored]
      · simp [hfolder, hcapitals, hstored, Store.Files.at?, Store.Files.empty]

theorem isDirectory_junctions : disk.isDirectory (junctionDirectory ⟨[]⟩ 0) := by
  rw [junctionDirectory, Store.Files.isDirectory_child (Store.Files.isDirectory_root _)
    (names_junctionDirectory 0), Store.Files.hasDirectory]
  simp only [disk, base, Store.Files.at?_put]
  decide +kernel

theorem location_junctions : (junctionDirectory ⟨[]⟩ 0).location = ["nodes_h3_0"] := by
  decide +kernel

theorem readManifest_disk : Catalog.readManifest disk ⟨[]⟩ = .ok ⟨0, none⟩ := by
  have hread : disk.read? (Path.child ⟨[]⟩ manifestName) = some (.json manifest) := by
    rw [Store.Files.read?, Store.Files.item?_child (Store.Files.isDirectory_root _) names_manifestName]
    simp [disk, base, Store.Files.at?_put, Path.location, manifestName]
  have hmanifest : Manifest.ofJson? manifest = some ⟨0, none⟩ := rfl
  simp only [Catalog.readManifest, hread, Document.json?, Option.bind_some, hmanifest]

theorem listed_iff {spelling : String} : tableName spelling ∈ disk.names (junctionDirectory ⟨[]⟩ 0) ↔
    spelling = stored.text ∨ spelling = capitals ∨ spelling = folder.text := by
  rw [Store.Files.mem_names_iff, location_junctions, List.singleton_append, at?_entry]
  by_cases hfolder : spelling = folder.text
  · simp [hfolder, isDirectory_junctions]
  · by_cases htable : spelling = capitals ∨ spelling = stored.text
    · simp [hfolder, htable, isDirectory_junctions, htable.symm]
    · simp [hfolder, htable, or_comm (a := spelling = stored.text)]

theorem exists_load : ∃ c, Catalog.load disk ⟨[]⟩ = .ok c := by
  refine (Catalog.exists_load_iff readManifest_disk).2 ⟨by decide, fun spelling hlisted => ?_⟩
  rcases listed_iff.1 hlisted with rfl | rfl | rfl
  · exact ⟨stored, Cell.fromText_text stored, by decide +kernel⟩
  · exact ⟨loud, rfl, by decide +kernel⟩
  · exact ⟨folder, Cell.fromText_text folder, by decide +kernel⟩

section Loaded
variable {c : Catalog}

theorem root_and_resolution (hc : Catalog.load disk ⟨[]⟩ = .ok c) : c.root = ⟨[]⟩ ∧ c.resolution = 0 := by
  obtain ⟨_, h⟩ := Catalog.gathers_of_load readManifest_disk hc
  exact ⟨h.root, h.resolution⟩

theorem contains_of_listed (hc : Catalog.load disk ⟨[]⟩ = .ok c) {cell : Cell} {spelling : String}
    (htext : Cell.fromText spelling = .ok cell)
    (hlisted : spelling = stored.text ∨ spelling = capitals ∨ spelling = folder.text) :
    c.cells.contains cell := by
  obtain ⟨hroot, hresolution⟩ := root_and_resolution hc
  refine (Catalog.contains_iff_spelled readManifest_disk hc).2 ⟨spelling, ?_, htext⟩
  rw [hroot, hresolution]
  exact listed_iff.2 hlisted

theorem isFile_junctionFile_iff (hc : Catalog.load disk ⟨[]⟩ = .ok c) (cell : Cell) :
    disk.isFile (c.junctionFile cell) ↔
      ∃ content, disk.at? ["nodes_h3_0", tableName cell.text] = some (.file content) := by
  obtain ⟨hroot, hresolution⟩ := root_and_resolution hc
  rw [Store.Files.isFile_iff, Catalog.junctionFile, hroot, hresolution,
    Store.Files.item?_child isDirectory_junctions (names_fileName cell), location_junctions]
  rfl

/-- Of the three cells that are announced, one has a table. -/
theorem found (hc : Catalog.load disk ⟨[]⟩ = .ok c) :
    (c.cells.contains stored ∧ disk.isFile (c.junctionFile stored)) ∧
    (c.cells.contains loud ∧ ¬ disk.isFile (c.junctionFile loud)) ∧
    c.cells.contains folder ∧ ¬ disk.isFile (c.junctionFile folder) := by
  have hcapitals : Cell.fromText capitals = .ok loud := rfl
  have hloud : loud.text ≠ folder.text ∧ loud.text ≠ capitals ∧ loud.text ≠ stored.text := by
    decide +kernel
  have hstored : stored.text ≠ folder.text := by decide +kernel
  simp only [isFile_junctionFile_iff hc, at?_entry]
  refine ⟨⟨contains_of_listed hc (Cell.fromText_text stored) (.inl rfl), ?_⟩,
    ⟨contains_of_listed hc hcapitals (.inr (.inl rfl)), ?_⟩,
    contains_of_listed hc (Cell.fromText_text folder) (.inr (.inr rfl)), ?_⟩
  · simp [hstored, table]
  · simp [hloud]
  · simp

end Loaded

theorem load_discovers_lookalikes : Catalog.readManifest disk ⟨[]⟩ = .ok ⟨0, none⟩ ∧
    ∃ c, Catalog.load disk ⟨[]⟩ = .ok c ∧ Catalog.Discovers disk c ∧ c.cells.contains stored ∧
      disk.isFile (c.junctionFile stored) := by
  obtain ⟨c, hc⟩ := exists_load
  exact ⟨readManifest_disk, c, hc, (Catalog.load_discovers readManifest_disk).2 c hc, (found hc).1⟩

/-- So a catalog may announce a cell without a table. -/
theorem not_all_exact : ¬ ∀ (disk : Disk) (root : Path) (n : Nat) (c : Catalog),
    Catalog.readManifest disk root = .ok ⟨n, none⟩ → Catalog.load disk root = .ok c → c.Exact disk := by
  intro hall
  obtain ⟨c, hc⟩ := exists_load
  obtain ⟨-, -, hcell, hfile⟩ := found hc
  have hr : folder.resolution = c.resolution :=
    (Catalog.discovers_of_load readManifest_disk hc).resolution folder hcell
  exact hfile ((hall disk ⟨[]⟩ 0 c readManifest_disk hc folder hr).1 hcell)

end Lookalikes
end RoadRouting.Dataset
