import RoadRouting.Proofs.Dataset.Unchanged
import RoadRouting.Proofs.Snap.Lossless
import RoadRouting.Proofs.Trip.Consistency

/-!
# Opening a dataset again

Whatever is found in place of an archived index, it is either taken back or made anew from the dataset
(`IndexOpened`). So a dataset that can be sampled can be opened, unless the samples have to be packed and
some coordinate is no number: then opening breaks down (`openPlanner_outcome`). Opening a dataset again
gives an index that answers alike (`IndexOpened.reopened`): what the first opening archived is that
index, and if it is not taken back, which happens when a node was sampled twice, the same samples are
drawn once more.
-/

namespace RoadRouting.Trip
set_option autoImplicit false
open Dataset (Catalog Unchanged)
open Grid (Cell CellSet)
open Network (Finder)
open Snap (Entry Index SameFiles)
open Store (Path Disk)

/-- The index that is made from samples. -/
def sampledIndex (c : Catalog) (s : Settings) (entries : List Entry) : Index :=
  .ofPacked entries (expectedHeader c s) (snapOptions s)

/-- No archived index can be used. -/
def Unarchived (c : Catalog) (s : Settings) (disk : Disk) (dir : Path) : Prop :=
  ∀ ix, Index.load disk dir (expectedHeader c s) (snapOptions s) ≠ .ok (some ix)

/-- How an index was opened. -/
inductive IndexOpened (c : Catalog) (s : Settings) (disk : Disk) (dir : Path) : Opened Index → Prop
  | archived {ix : Index} : Index.load disk dir (expectedHeader c s) (snapOptions s) = .ok (some ix) →
      IndexOpened c s disk dir ⟨.ok ix, [], disk⟩
  | unsampled {f : Dataset.Fault} {w : List Warning} : Unarchived c s disk dir →
      sampleCatalog c disk s.sampleCap s.seed = .error f →
      IndexOpened c s disk dir ⟨.error (.dataset f), w, disk⟩
  | unpacked {entries : List Entry} {w : List Warning} : Unarchived c s disk dir →
      sampleCatalog c disk s.sampleCap s.seed = .ok entries → Snap.isPackable entries = false →
      IndexOpened c s disk dir ⟨.error (.breakdown .incomparable), w, disk⟩
  | unsaved {entries : List Entry} {w : List Warning} : Unarchived c s disk dir →
      sampleCatalog c disk s.sampleCap s.seed = .ok entries → Snap.isPackable entries = true →
      IndexOpened c s disk dir ⟨.ok (sampledIndex c s entries), w, disk⟩
  | saved {entries : List Entry} {w : List Warning} {saving : Except Snap.ArchiveFault Unit}
      {disk' : Disk} : Unarchived c s disk dir →
      sampleCatalog c disk s.sampleCap s.seed = .ok entries → Snap.isPackable entries = true →
      (sampledIndex c s entries).save disk dir = (saving, disk') →
      IndexOpened c s disk dir ⟨.ok (sampledIndex c s entries), w, disk'⟩

section Index
variable {c : Catalog} {s : Settings} {disk now : Disk} {dir root : Path} {persist : Bool}

theorem coldIndex_opened {w : List Warning} (h : Unarchived c s disk dir) :
    IndexOpened c s disk dir (coldIndex c s disk dir persist w) := by
  unfold coldIndex
  cases hs : sampleCatalog c disk s.sampleCap s.seed with
  | error f => exact .unsampled h hs
  | ok entries =>
    simp only [Index.ofEntries]
    cases hp : Snap.isPackable entries with
    | false => exact .unpacked h hs hp
    | true =>
      simp only [if_true]
      split
      · split
        · rename_i hsave
          exact .saved h hs hp hsave
        · rename_i hsave
          exact .saved h hs hp hsave
      · exact .unsaved h hs hp

/-- What opening an index can do. -/
theorem openIndex_opened (c : Catalog) (s : Settings) (disk : Disk) (dir : Path) (persist : Bool) :
    IndexOpened c s disk dir (openIndex c s disk dir persist) := by
  unfold openIndex
  split
  · rename_i ix hl
    exact .archived hl
  · rename_i hl
    apply coldIndex_opened
    intro ix
    rw [hl]
    nofun
  · rename_i f hl
    apply coldIndex_opened
    intro ix
    rw [hl]
    nofun

/-! ## Samples -/

/-- An unchanged dataset gives the same samples. -/
theorem sampleCatalog_unchanged (h : Unchanged root disk now) (hc : Catalog.load disk root = .ok c)
    (cap : Nat) (seed : UInt64) : sampleCatalog c now cap seed = sampleCatalog c disk cap seed := by
  have hpartition : samplePartition c now cap seed = samplePartition c disk cap seed := by
    funext cell
    unfold samplePartition
    rw [h.rows hc]
  unfold sampleCatalog
  rw [hpartition]

/-- A dataset can be sampled when each table of junctions that is there can be read. -/
theorem sampleCatalog_ok (h : ∀ cell, c.cells.contains cell → disk.isFile (c.junctionFile cell) →
      ∃ js, Dataset.rowsIn disk (Dataset.readJunctions Dataset.batchSize) (c.junctionFile cell) = .ok js)
    (cap : Nat) (seed : UInt64) : ∃ entries, sampleCatalog c disk cap seed = .ok entries := by
  refine ⟨_, sampleCatalog_eq_ok.2 ⟨fun cell hcell => ?_, rfl⟩⟩
  unfold rowsOf Dataset.rowsIfThere
  split
  · rename_i hfile
    exact h cell hcell hfile
  · exact ⟨[], rfl⟩

/-! ## What an opening leaves -/

section Opened
variable {opened : Opened Index}

/-- When nothing is opened nothing is written. -/
theorem IndexOpened.disk_of_error (h : IndexOpened c s disk dir opened) {f : Fault}
    (hf : opened.result = .error f) : opened.disk = disk := by
  cases h with
  | archived _ | unsaved _ _ _ | saved _ _ _ _ => cases hf
  | unsampled _ _ | unpacked _ _ _ => rfl

/-- If the dataset can be sampled an index is opened, unless none can be taken back and the samples
cannot be packed: then opening breaks down. -/
theorem IndexOpened.outcome (h : IndexOpened c s disk dir opened) {entries : List Entry}
    (hs : sampleCatalog c disk s.sampleCap s.seed = .ok entries) :
    ((∃ ix, opened.result = .ok ix) ↔ ¬ Unarchived c s disk dir ∨ Snap.isPackable entries) ∧
      ∀ f, opened.result = .error f → f = .breakdown .incomparable := by
  cases h with
  | archived hl => exact ⟨iff_of_true ⟨_, rfl⟩ (.inl fun hnone => hnone _ hl), nofun⟩
  | unsampled _ herror =>
    rw [hs] at herror
    cases herror
  | unpacked hnone hs' hp =>
    rw [hs] at hs'
    cases hs'
    refine ⟨iff_of_false nofun ?_, ?_⟩
    · rintro (harchived | hpackable)
      · exact harchived hnone
      · rw [hp] at hpackable
        cases hpackable
    · rintro f ⟨⟩
      rfl
  | unsaved _ hs' hp | saved _ hs' hp _ =>
    rw [hs] at hs'
    cases hs'
    exact ⟨iff_of_true ⟨_, rfl⟩ (.inr hp), nofun⟩

/-- A dataset is not changed by archiving an index in its directory. -/
theorem save_unchanged {ix : Index} {saving : Except Snap.ArchiveFault Unit} {disk' : Disk}
    (hroot : disk.isDirectory root) (hsave : ix.save disk root = (saving, disk')) :
    Unchanged root disk disk' := by
  unfold Index.save at hsave
  rw [Store.Files.makeDirectories_of_isDirectory hroot] at hsave
  simp only at hsave
  split at hsave
  · cases hsave
    exact .refl root disk
  · rename_i disk₁ h1
    have hfirst : Unchanged root disk disk₁ := .write Snap.names_entriesFile (by decide) h1
    split at hsave
    · cases hsave
      exact hfirst
    · rename_i disk₂ h2
      cases hsave
      exact hfirst.trans (.write Snap.names_coordinatesFile (by decide) h2)

theorem IndexOpened.unchanged (h : IndexOpened c s disk root opened) (hroot : disk.isDirectory root) :
    Unchanged root disk opened.disk := by
  cases h with
  | archived _ | unsampled _ _ | unpacked _ _ _ | unsaved _ _ _ => exact .refl root disk
  | saved _ _ _ hsave => exact save_unchanged hroot hsave

/-! ## The index of a second opening -/

/-- The index of some samples, or one that answers alike, is opened where no other index is archived. -/
theorem IndexOpened.exists_alike {entries : List Entry} (h : IndexOpened c s now dir opened)
    (hs : sampleCatalog c now s.sampleCap s.seed = .ok entries) (hp : Snap.isPackable entries = true)
    (hload : ∀ ix, Index.load now dir (expectedHeader c s) (snapOptions s) = .ok (some ix) →
      (sampledIndex c s entries).Alike ix) :
    ∃ ix', opened.result = .ok ix' ∧ (sampledIndex c s entries).Alike ix' := by
  cases h with
  | archived hl => exact ⟨_, rfl, hload _ hl⟩
  | unsampled _ hs' =>
    rw [hs] at hs'
    cases hs'
  | unpacked _ hs' hp' =>
    rw [hs] at hs'
    cases hs'
    rw [hp] at hp'
    cases hp'
  | unsaved _ hs' _ | saved _ hs' _ _ =>
    rw [hs] at hs'
    cases hs'
    exact ⟨_, rfl, .refl (Index.Remembers.of_memo_empty rfl)⟩

/-- An index that was opened is opened again, and answers alike. -/
theorem IndexOpened.reopened (h : IndexOpened c s disk dir opened) {ix : Index}
    (hok : opened.result = .ok ix) (hfiles : SameFiles dir opened.disk now)
    (hsample : sampleCatalog c now s.sampleCap s.seed = sampleCatalog c disk s.sampleCap s.seed)
    (persist : Bool) : ∃ ix', (openIndex c s now dir persist).result = .ok ix' ∧ ix.Alike ix' := by
  have hagain := openIndex_opened c s now dir persist
  cases h with
  | archived hl =>
    cases hok
    obtain ⟨-, -, -, -, -, hmemo⟩ := Index.load_eq_some hl
    have hsame : openIndex c s now dir persist = ⟨.ok ix, [], now⟩ := by
      unfold openIndex
      rw [Index.load_congr hfiles, hl]
    exact ⟨ix, by rw [hsame], .refl (.of_memo_empty hmemo)⟩
  | unsampled _ _ | unpacked _ _ _ => cases hok
  | unsaved hnone hs hp =>
    cases hok
    refine hagain.exists_alike (hsample.trans hs) hp fun ix' hl => ?_
    rw [Index.load_congr hfiles] at hl
    exact absurd hl (hnone ix')
  | @saved entries w saving disk' _ hs hp hsave =>
    cases hok
    refine hagain.exists_alike (hsample.trans hs) hp fun ix' hl => ?_
    cases saving with
    | ok u =>
      obtain ⟨hentries, htable⟩ := Index.reads_of_save hsave
      exact Index.alike_of_saved (.of_memo_empty rfl) (hfiles.entries.trans hentries)
        (hfiles.coordinates.trans htable) hl
    | error f =>
      rw [Index.load_congr hfiles, Index.load_of_save_error hsave] at hl
      cases hl

end Opened
end Index

/-! ## Planners -/

section Planners
variable {s : Settings} {disk now : Disk} {root : Path} {o : Opening Float} {c : Catalog}

theorem openPlanner_eq (hs : s.fault? = none) (hc : Catalog.load disk root = .ok c) :
    openPlanner s disk root o =
      let opened := openIndex c s disk (o.indexDirectory.getD root) o.persist
      ⟨opened.result.map fun index => planner s c index o.guided, opened.warnings, opened.disk⟩ := by
  unfold openPlanner
  simp only [hs, hc]

/-- A planner is not opened without settings that make sense and a catalog. -/
theorem openPlanner_cases (s : Settings) (disk : Disk) (root : Path) (o : Opening Float) :
    (∃ f, openPlanner s disk root o = ⟨.error f, [], disk⟩) ∨
      ∃ c, s.fault? = none ∧ Catalog.load disk root = .ok c := by
  unfold openPlanner
  cases s.fault? with
  | some f => exact .inl ⟨_, rfl⟩
  | none =>
    cases Catalog.load disk root with
    | error f => exact .inl ⟨_, rfl⟩
    | ok c => exact .inr ⟨c, rfl, rfl⟩

/-- Opening a dataset that holds its own archive does not change it. -/
theorem openPlanner_unchanged (s : Settings) (disk : Disk) (root : Path)
    (ho : o.indexDirectory = none) : Unchanged root disk (openPlanner s disk root o).disk := by
  rcases openPlanner_cases s disk root o with ⟨f, heq⟩ | ⟨c, hs, hc⟩
  · rw [heq]
    exact .refl root disk
  · rw [openPlanner_eq hs hc, ho]
    exact (openIndex_opened c s disk root o.persist).unchanged (Dataset.isDirectory_of_load hc)

/-- Whatever the archive holds, a dataset whose manifest and tables of junctions can be read is opened,
unless no archived index can be used and the samples cannot be packed: then opening breaks down. -/
theorem openPlanner_outcome (o : Opening Float) (hs : s.fault? = none) (hc : Catalog.load disk root = .ok c)
    (htables : ∀ cell, c.cells.contains cell → disk.isFile (c.junctionFile cell) → ∃ js,
      Dataset.rowsIn disk (Dataset.readJunctions Dataset.batchSize) (c.junctionFile cell) = .ok js) :
    ∃ entries, sampleCatalog c disk s.sampleCap s.seed = .ok entries ∧
      ((∃ p, (openPlanner s disk root o).result = .ok p) ↔
        ¬ Unarchived c s disk (o.indexDirectory.getD root) ∨ Snap.isPackable entries) ∧
      ∀ f, (openPlanner s disk root o).result = .error f → f = .breakdown .incomparable := by
  obtain ⟨entries, hentries⟩ := sampleCatalog_ok htables s.sampleCap s.seed
  obtain ⟨hopens, hbreaks⟩ :=
    (openIndex_opened c s disk (o.indexDirectory.getD root) o.persist).outcome hentries
  refine ⟨entries, hentries, ?_⟩
  rw [← hopens, openPlanner_eq hs hc]
  cases hix : (openIndex c s disk (o.indexDirectory.getD root) o.persist).result with
  | ok ix =>
    simp only [hix]
    exact ⟨iff_of_true ⟨_, rfl⟩ ⟨ix, rfl⟩, nofun⟩
  | error f =>
    simp only [hix]
    refine ⟨iff_of_false nofun nofun, ?_⟩
    rintro _ ⟨⟩
    exact hbreaks f hix

/-- So such a dataset is opened if all its coordinates are numbers. -/
theorem openPlanner_of_numeric (o : Opening Float) (hs : s.fault? = none)
    (hc : Catalog.load disk root = .ok c)
    (htables : ∀ cell, c.cells.contains cell → disk.isFile (c.junctionFile cell) → ∃ js,
      Dataset.rowsIn disk (Dataset.readJunctions Dataset.batchSize) (c.junctionFile cell) = .ok js)
    (hnumbers : ∀ id position, (stockOf c disk).Lists id position → position.isNumeric) :
    ∃ p, (openPlanner s disk root o).result = .ok p := by
  obtain ⟨entries, hentries, hopens, -⟩ := openPlanner_outcome o hs hc htables
  apply hopens.2
  right
  apply Snap.isPackable_of_numeric
  intro e he
  exact hnumbers _ _ (sampleCatalog_mem hentries he).lists

/-- Opening a dataset again succeeds if it did once, and the index answers as the first one does; here
the dataset is unchanged and the archive is what the first opening left. If the settings make sense, and
the manifest and the tables of junctions can be read, the dataset is opened whatever the archive holds,
unless no archived index can be used and the samples cannot be packed. An opening that fails changes no
file. -/
theorem openPlanner_idempotent (s : Settings) (disk : Disk) (root : Path) (o : Opening Float) :
    (∀ p now, (openPlanner s disk root o).result = .ok p → Unchanged root disk now →
      SameFiles (o.indexDirectory.getD root) (openPlanner s disk root o).disk now →
      ∃ p', (openPlanner s now root o).result = .ok p' ∧ p.index.Alike p'.index) ∧
    (∀ c, s.fault? = none → Catalog.load disk root = .ok c →
      (∀ cell, c.cells.contains cell → disk.isFile (c.junctionFile cell) → ∃ js,
        Dataset.rowsIn disk (Dataset.readJunctions Dataset.batchSize) (c.junctionFile cell) = .ok js) →
      ∃ entries, sampleCatalog c disk s.sampleCap s.seed = .ok entries ∧
        ((∃ p, (openPlanner s disk root o).result = .ok p) ↔
          ¬ Unarchived c s disk (o.indexDirectory.getD root) ∨ Snap.isPackable entries) ∧
        ∀ f, (openPlanner s disk root o).result = .error f → f = .breakdown .incomparable) ∧
    ∀ f, (openPlanner s disk root o).result = .error f → (openPlanner s disk root o).disk = disk := by
  refine ⟨?_, fun c hs hc htables => openPlanner_outcome o hs hc htables, ?_⟩
  · intro p now hp hsame hfiles
    obtain ⟨hs, c, ix, hc, hix, rfl⟩ := openPlanner_eq_ok hp
    rw [openPlanner_eq hs hc] at hfiles
    obtain ⟨ix', hix', halike⟩ := (openIndex_opened c s disk _ _).reopened hix hfiles
      (sampleCatalog_unchanged hsame hc s.sampleCap s.seed) o.persist
    refine ⟨planner s c ix' o.guided, ?_, halike⟩
    rw [openPlanner_eq hs (hsame.load.trans hc)]
    simp only [hix']
    rfl
  · intro f hf
    rcases openPlanner_cases s disk root o with ⟨f', heq⟩ | ⟨c, hs, hc⟩
    · rw [heq]
    · rw [openPlanner_eq hs hc] at hf ⊢
      have hopened := openIndex_opened c s disk (o.indexDirectory.getD root) o.persist
      cases hix : (openIndex c s disk (o.indexDirectory.getD root) o.persist).result with
      | ok ix =>
        simp only [hix] at hf
        cases hf
      | error f' => exact hopened.disk_of_error hix

end Planners

/-! ## Datasets of one partition -/

namespace Sole

def opening : Opening Float := ⟨none, true, none⟩

/-- The table of some junctions with a manifest. -/
def datasetOf (js : List (Dataset.Junction Point)) : Disk :=
  (tableOf js).put [Dataset.manifestName] (.file (.json (Dataset.Manifest.toJson cell.resolution [cell])))

def dataset : Disk := datasetOf [junction]

section Junctions
variable (js : List (Dataset.Junction Point))

theorem hasDirectory_manifest : (tableOf js).hasDirectory [Dataset.manifestName] = false := by
  simp only [tableOf, Store.Files.hasDirectory, Store.Files.at?_put]
  simp [Dataset.manifestName, Store.Files.at?, Store.Files.empty]

theorem load_datasetOf : Catalog.load (datasetOf js) ⟨[]⟩ = .ok catalog := by
  have hwrite := Store.Files.write?_child (tableOf js).isDirectory_root Dataset.names_manifestName
    (hasDirectory_manifest js) (.json (Dataset.Manifest.toJson cell.resolution [cell]))
  have hcells : ∀ c ∈ [cell], c.resolution = cell.resolution := by
    intro c hc
    rw [List.mem_singleton.1 hc]
  exact Catalog.load_manifest (Store.Files.read?_write hwrite) hcells

theorem junctions_datasetOf : Dataset.rowsIfThere (datasetOf js)
    (Dataset.readJunctions Dataset.batchSize) (catalog.junctionFile cell) = .ok js := by
  have hread : (datasetOf js).read? (catalog.junctionFile cell) =
      (tableOf js).read? (catalog.junctionFile cell) := by
    apply Store.Files.read?_put_of_ne (hasDirectory_manifest js)
    unfold Catalog.junctionFile Dataset.junctionDirectory
    rw [(Dataset.isTables_junctions _).location_file]
    simp [catalog, Path.location]
  exact (Dataset.rowsIfThere_congr hread).trans (junctions_eq js)

theorem tables_datasetOf (cell' : Cell) (hc : catalog.cells.contains cell')
    (hfile : (datasetOf js).isFile (catalog.junctionFile cell')) : ∃ js',
      Dataset.rowsIn (datasetOf js) (Dataset.readJunctions Dataset.batchSize) (catalog.junctionFile cell') =
        .ok js' := by
  have hcell : cell' ∈ catalog.cells.toList := Std.TreeSet.mem_toList.2 hc
  rw [toList_cells, List.mem_singleton] at hcell
  subst hcell
  have hrows := junctions_datasetOf js
  unfold Dataset.rowsIfThere at hrows
  rw [if_pos hfile] at hrows
  exact ⟨_, hrows⟩

/-- Nothing is archived in the dataset. -/
theorem unarchived_datasetOf (s : Settings) : Unarchived catalog s (datasetOf js) ⟨[]⟩ := by
  have hread : (datasetOf js).read? (Path.child ⟨[]⟩ Snap.entriesFile) = none := by
    rw [Store.Files.read?, Store.Files.item?_child (Store.Files.isDirectory_root _) Snap.names_entriesFile]
    simp only [datasetOf, tableOf, Store.Files.at?_put]
    simp [Path.location, Snap.entriesFile, Dataset.manifestName, Store.Files.at?, Store.Files.empty]
  intro ix hl
  rw [Index.load_of_unread (.inl hread)] at hl
  cases hl

end Junctions

theorem fault?_standard : Settings.standard.fault? = none := by decide +kernel

theorem read_empty : (Store.Files.empty : Disk).read? (Path.child ⟨[]⟩ Dataset.manifestName) = none := by
  rw [Store.Files.read?, Store.Files.item?_child (Store.Files.isDirectory_root _) Dataset.names_manifestName]
  simp [Store.Files.at?, Store.Files.empty]

theorem openPlanner_idempotent_dataset : ∃ p p' now f,
    (Settings.standard.fault? = none ∧ Catalog.load dataset ⟨[]⟩ = .ok catalog ∧
      (openPlanner .standard dataset ⟨[]⟩ opening).result = .ok p) ∧
    (Unchanged ⟨[]⟩ dataset now ∧ SameFiles ⟨[]⟩ (openPlanner .standard dataset ⟨[]⟩ opening).disk now ∧
      (openPlanner .standard now ⟨[]⟩ opening).result = .ok p' ∧ p.index.Alike p'.index) ∧
    (openPlanner .standard .empty ⟨[]⟩ opening).result = .error f ∧
      (openPlanner .standard .empty ⟨[]⟩ opening).disk = .empty := by
  obtain ⟨hagain, hopens, -⟩ := openPlanner_idempotent .standard dataset ⟨[]⟩ opening
  have hload := load_datasetOf [junction]
  obtain ⟨entries, hentries, hopened, -⟩ :=
    hopens catalog fault?_standard hload (tables_datasetOf [junction])
  have hpackable : Snap.isPackable entries = true := by
    have hsamples := sampleCatalog_of_junctions (junctions_datasetOf [junction]) Settings.standard.sampleCap
      Settings.standard.seed
    cases hentries.symm.trans hsamples
    exact Snap.isPackable_iff.2 (.inl (by decide))
  obtain ⟨p, hp⟩ := hopened.2 (.inr hpackable)
  have hsame : Unchanged ⟨[]⟩ dataset (openPlanner .standard dataset ⟨[]⟩ opening).disk :=
    openPlanner_unchanged .standard dataset ⟨[]⟩ rfl
  have hfiles : SameFiles ⟨[]⟩ (openPlanner .standard dataset ⟨[]⟩ opening).disk
      (openPlanner .standard dataset ⟨[]⟩ opening).disk := ⟨rfl, rfl⟩
  obtain ⟨p', hp', halike⟩ := hagain p _ hp hsame hfiles
  obtain ⟨-, -, hkeeps⟩ := openPlanner_idempotent .standard .empty ⟨[]⟩ opening
  have hfails : ∃ f, (openPlanner .standard .empty ⟨[]⟩ opening).result = .error f := by
    have hmissing := Dataset.load_of_unread read_empty
    unfold openPlanner
    simp only [fault?_standard, hmissing]
    exact ⟨_, rfl⟩
  obtain ⟨f, hf⟩ := hfails
  exact ⟨p, p', _, f, ⟨fault?_standard, hload, hp⟩, ⟨hsame, hfiles, hp', halike⟩, hf, hkeeps f hf⟩

/-- More junctions than one node has room for. The first one has no latitude. -/
def seven : List (Dataset.Junction Point) :=
  ⟨1, ⟨0.0 / 0.0, 0.5⟩⟩ :: [2, 3, 4, 5, 6, 7].map fun id => ⟨id, ⟨0.5, 0.5⟩⟩

/-- Not every dataset whose manifest and tables can be read is opened. -/
theorem not_all_opened : ¬ ∀ (s : Settings) (disk : Disk) (root : Path) (o : Opening Float) (c : Catalog),
    s.fault? = none → Catalog.load disk root = .ok c →
    (∀ cell, c.cells.contains cell → disk.isFile (c.junctionFile cell) → ∃ js,
      Dataset.rowsIn disk (Dataset.readJunctions Dataset.batchSize) (c.junctionFile cell) = .ok js) →
    ∃ p, (openPlanner s disk root o).result = .ok p := by
  intro hall
  have hload := load_datasetOf seven
  have htables := tables_datasetOf seven
  obtain ⟨entries, hentries, hopened, -⟩ := openPlanner_outcome opening fault?_standard hload htables
  have hunpackable : Snap.isPackable entries = false := by
    have hsamples := sampleCatalog_of_junctions (junctions_datasetOf seven) Settings.standard.sampleCap
      Settings.standard.seed
    cases hentries.symm.trans hsamples
    decide +kernel
  rcases hopened.1 (hall .standard (datasetOf seven) ⟨[]⟩ opening catalog fault?_standard hload htables) with
    harchived | hpackable
  · exact harchived (unarchived_datasetOf seven .standard)
  · rw [hunpackable] at hpackable
    cases hpackable

end Sole
end RoadRouting.Trip
