import RoadRouting.Proofs.Dataset.Discovery
import RoadRouting.Proofs.Grid.Digests
import RoadRouting.Proofs.Trip.Reopening

/-!
# What fingerprints tell apart

A manifest may list its cells in any order, spell them in any way and repeat them: the catalog keeps only which
cells they are, and so does its fingerprint (`SameCells`). Where one cell is exchanged for another, at one place
of the order, the fingerprints differ, so an index that was archived for one of the catalogs is refused for the
other and made anew (`ToldApart`).
-/

namespace RoadRouting.Trip
set_option autoImplicit false
open Dataset (Catalog)
open Grid (Cell CellSet Resolution)
open Snap (Index SameFiles)
open Store (Disk Path)

/-! ## Manifests that list cells -/

/-- Some key spells the cell. -/
def Spells (keys : List String) (cell : Cell) : Prop := ∃ key ∈ keys, Cell.fromText key = .ok cell

/-- The manifest in a directory lists keys, each of which spells a cell of its resolution. -/
structure Lists (disk : Disk) (root : Path) (r : Resolution) (keys : List String) : Prop where
  manifest : Catalog.readManifest disk root = .ok ⟨r.val, some keys⟩
  named : ∀ key ∈ keys, ∃ cell, Cell.fromText key = .ok cell ∧ cell.resolution = r

/-- Two catalogs have the same cells, and so the same list of them and the same fingerprint. -/
structure SameCells (c c' : Catalog) : Prop where
  cells : c.cells.toList = c'.cells.toList
  size : c.cells.size = c'.cells.size
  fingerprint : c.cells.fingerprint = c'.cells.fingerprint

section Listed
variable {disk : Disk} {root : Path} {r : Resolution} {keys : List String} {c c' : Catalog}

theorem SameCells.of_contains (h : ∀ cell, c.cells.contains cell ↔ c'.cells.contains cell) : SameCells c c' := by
  have hcells : c.cells.toList = c'.cells.toList :=
    toList_eq_iff.2 fun cell => Bool.eq_iff_iff.2 (h cell)
  refine ⟨hcells, ?_, CellSet.fingerprint_congr hcells⟩
  rw [← Std.TreeSet.length_toList, hcells, Std.TreeSet.length_toList]

/-- The catalog of a manifest that lists cells has the cells that are spelled, and no others. -/
theorem Lists.exists_load (h : Lists disk root r keys) :
    ∃ c, Catalog.load disk root = .ok c ∧ ∀ cell, c.cells.contains cell ↔ Spells keys cell := by
  have hload : Catalog.load disk root = keys.foldlM Catalog.addKey ⟨root, r, ∅⟩ := by
    unfold Catalog.load
    rw [h.manifest]
    exact dif_pos r.isLt
  obtain ⟨c, hc⟩ := Catalog.exists_foldlM_addKey (c := ⟨root, r, ∅⟩) h.named
  refine ⟨c, hload.trans hc, fun cell => ?_⟩
  rw [(Catalog.gathers_of_foldlM hc).contains]
  simp [Spells]

end Listed

/-! ## An exchange of one cell -/

/-- The fingerprints of two catalogs differ, and an index that was archived for the first one is of no use for
the second. -/
structure ToldApart (c c' : Catalog) : Prop where
  fingerprint : c.cells.fingerprint ≠ c'.cells.fingerprint
  header : ∀ s s', expectedHeader c s ≠ expectedHeader c' s'
  /-- One of its files is enough to be refused. -/
  useless : ∀ (s s' : Settings) (ix : Index) (disk disk' now : Disk) (dir : Path),
    ix.header = expectedHeader c s → ix.save disk dir = (.ok (), disk') →
    (now.read? (dir.child Snap.entriesFile) = disk'.read? (dir.child Snap.entriesFile) ∨
      now.read? (dir.child Snap.coordinatesFile) = disk'.read? (dir.child Snap.coordinatesFile)) →
    Unarchived c' s' now dir
  /-- Where both lie, the header is given as the reason, and a new index is made. -/
  refused : ∀ (s s' : Settings) (ix : Index) (disk disk' now : Disk) (dir : Path) (persist : Bool),
    ix.header = expectedHeader c s → ix.save disk dir = (.ok (), disk') → SameFiles dir disk' now →
    let fault := Snap.ArchiveFault.defective (dir.child Snap.entriesFile)
      (.header (expectedHeader c s) (expectedHeader c' s'))
    Index.load now dir (expectedHeader c' s') (snapOptions s') = .error fault ∧
      openIndex c' s' now dir persist = coldIndex c' s' now dir persist [.discarded dir fault]

section Exchanged
variable {c c' : Catalog} {s s' : Settings}

theorem expectedHeader_ne (h : c.cells.fingerprint ≠ c'.cells.fingerprint) :
    expectedHeader c s ≠ expectedHeader c' s' := by
  intro heq
  exact h (UInt64.toNat_inj.1 (congrArg Snap.Header.fingerprint heq))

theorem ToldApart.of_differInOne (h : DifferInOne c.cells.toList c'.cells.toList) : ToldApart c c' := by
  have hfingerprint : c.cells.fingerprint ≠ c'.cells.fingerprint := CellSet.fingerprint_ne h
  refine ⟨hfingerprint, fun s s' => expectedHeader_ne hfingerprint, ?_, ?_⟩
  · intro s s' ix disk disk' now dir hix hsave hfile
    have hne : ix.header ≠ expectedHeader c' s' := hix ▸ expectedHeader_ne hfingerprint
    exact fun ix' => Index.load_ne_of_header_ne hne hsave hfile
  · intro s s' ix disk disk' now dir persist hix hsave hsame
    have hne : ix.header ≠ expectedHeader c' s' := hix ▸ expectedHeader_ne hfingerprint
    have hload : Index.load now dir (expectedHeader c' s') (snapOptions s') =
        .error (.defective (dir.child Snap.entriesFile) (.header ix.header (expectedHeader c' s'))) :=
      Index.load_of_header_ne hne hsave hsame
    rw [hix] at hload
    refine ⟨hload, ?_⟩
    unfold openIndex
    rw [hload]

end Exchanged

/-- Manifests that list the same cells, in whatever order and spelling and however often, give catalogs with
the same list of cells, of the same size and with the same fingerprint. Where the lists of two catalogs differ in
exactly one place, the fingerprints differ, and what was archived for one is refused for the other. -/
theorem fingerprints_discern :
    (∀ (disk disk' : Disk) (root root' : Path) (r r' : Resolution) (keys keys' : List String),
      Lists disk root r keys → Lists disk' root' r' keys' →
      (∀ cell, Spells keys cell ↔ Spells keys' cell) →
      ∃ c c', Catalog.load disk root = .ok c ∧ Catalog.load disk' root' = .ok c' ∧
        (∀ cell, c.cells.contains cell ↔ Spells keys cell) ∧ SameCells c c') ∧
    ∀ c c' : Catalog, DifferInOne c.cells.toList c'.cells.toList → ToldApart c c' := by
  refine ⟨?_, fun c c' => .of_differInOne⟩
  intro disk disk' root root' r r' keys keys' hlists hlists' hspells
  obtain ⟨c, hc, hcells⟩ := hlists.exists_load
  obtain ⟨c', hc', hcells'⟩ := hlists'.exists_load
  refine ⟨c, c', hc, hc', hcells, .of_contains fun cell => ?_⟩
  rw [hcells, hspells, ← hcells']

/-! ## A dataset of two partitions, and one with another partition in place of the second -/

namespace Pair

def keys : List String := ["8003fffffffffff", "8005fffffffffff"]

/-- The same cells, the second one first, with a sign and in capitals, and once more at the end. -/
def scrawledKeys : List String := [" +08005FFFFFFFFFFF ", "8003fffffffffff", "8005fffffffffff"]

def manifest (keys : List String) : Json :=
  .object [(some "resolution_level", .nat 0), (some "partitions", .array (keys.map Json.string))]

/-- A dataset that is only a manifest. -/
def listed (keys : List String) : Disk :=
  Store.Files.empty.put [Dataset.manifestName] (.file (.json (manifest keys)))

/-- A partition that takes the place of the second one. -/
def inland : Cell := ⟨0x8017fffffffffff, by decide +kernel⟩

def exchanged : Catalog := .ofCells ⟨[]⟩ west.resolution [inland, west]

theorem readManifest_listed {ks : List String}
    (h : Dataset.Manifest.ofJson? (manifest ks) = some ⟨west.resolution.val, some ks⟩) :
    Catalog.readManifest (listed ks) ⟨[]⟩ = .ok ⟨west.resolution.val, some ks⟩ := by
  have hread : (listed ks).read? (Path.child ⟨[]⟩ Dataset.manifestName) = some (.json (manifest ks)) := by
    rw [Store.Files.read?, Store.Files.item?_child (Store.Files.isDirectory_root _) Dataset.names_manifestName]
    simp [listed, Store.Files.at?_put, Path.location, Dataset.manifestName]
  simp only [Catalog.readManifest, hread, Store.Document.json?, Option.bind_some, h]

theorem lists_keys : Lists (listed keys) ⟨[]⟩ west.resolution keys := by
  refine ⟨readManifest_listed rfl, List.forall_mem_cons.2 ⟨⟨west, rfl, rfl⟩, ?_⟩⟩
  exact List.forall_mem_singleton.2 ⟨east, rfl, rfl⟩

theorem lists_scrawledKeys : Lists (listed scrawledKeys) ⟨[]⟩ west.resolution scrawledKeys := by
  refine ⟨readManifest_listed rfl, List.forall_mem_cons.2 ⟨⟨east, rfl, rfl⟩, ?_⟩⟩
  exact List.forall_mem_cons.2 ⟨⟨west, rfl, rfl⟩, List.forall_mem_singleton.2 ⟨east, rfl, rfl⟩⟩

theorem spells_keys_iff {cell : Cell} : Spells keys cell ↔ cell = west ∨ cell = east := by
  have hwest : Cell.fromText "8003fffffffffff" = .ok west := rfl
  have heast : Cell.fromText "8005fffffffffff" = .ok east := rfl
  simp [Spells, keys, hwest, heast, eq_comm]

theorem spells_scrawledKeys_iff {cell : Cell} : Spells scrawledKeys cell ↔ cell = west ∨ cell = east := by
  have hcapitals : Cell.fromText " +08005FFFFFFFFFFF " = .ok east := rfl
  have hwest : Cell.fromText "8003fffffffffff" = .ok west := rfl
  have heast : Cell.fromText "8005fffffffffff" = .ok east := rfl
  simp [Spells, scrawledKeys, hcapitals, hwest, heast, eq_comm, or_comm]

theorem differInOne_exchanged : DifferInOne catalog.cells.toList exchanged.cells.toList := by
  have hexchanged : exchanged.cells.toList = [west, inland] := by decide +kernel
  have hne : east ≠ inland := by decide +kernel
  rw [toList_cells, hexchanged]
  refine ⟨rfl, 1, fun j => ?_⟩
  match j with
  | 0 => simp
  | 1 => simp [hne]
  | j + 2 => simp

/-- The index of the one dataset is archived, and of no use for the other. -/
theorem fingerprints_discern_exchanged :
    (∃ c c', Lists (listed keys) ⟨[]⟩ west.resolution keys ∧
      Lists (listed scrawledKeys) ⟨[]⟩ west.resolution scrawledKeys ∧
      Catalog.load (listed keys) ⟨[]⟩ = .ok c ∧ Catalog.load (listed scrawledKeys) ⟨[]⟩ = .ok c' ∧
      (∀ cell, c.cells.contains cell ↔ Spells keys cell) ∧ SameCells c c') ∧
    DifferInOne catalog.cells.toList exchanged.cells.toList ∧
    let ix := Index.ofPacked [] (expectedHeader catalog .standard) (snapOptions .standard)
    ∃ archive file defect, ix.save .empty ⟨[]⟩ = (.ok (), archive) ∧
      Index.load archive ⟨[]⟩ (expectedHeader exchanged .standard) (snapOptions .standard) =
        .error (.defective file defect) := by
  obtain ⟨hsame, hexchange⟩ := fingerprints_discern
  obtain ⟨c, c', hc, hc', hcells, hsame⟩ := hsame _ _ _ _ _ _ _ _ lists_keys lists_scrawledKeys
    fun cell => spells_keys_iff.trans spells_scrawledKeys_iff.symm
  refine ⟨⟨c, c', lists_keys, lists_scrawledKeys, hc, hc', hcells, hsame⟩, differInOne_exchanged, ?_⟩
  intro ix
  have hfree (name : String) :
      (Store.Files.empty : Disk).hasDirectory (Path.location ⟨[]⟩ ++ [name]) = false := by
    simp [Store.Files.hasDirectory, Store.Files.at?, Store.Files.empty]
  have hsave := ix.save_ok (Store.Files.isDirectory_root _) (hfree _) (hfree _)
  obtain ⟨hload, -⟩ := (hexchange _ _ differInOne_exchanged).refused .standard .standard ix _ _ _ ⟨[]⟩ false
    rfl hsave ⟨rfl, rfl⟩
  exact ⟨_, _, _, hsave, hload⟩

end Pair
end RoadRouting.Trip
