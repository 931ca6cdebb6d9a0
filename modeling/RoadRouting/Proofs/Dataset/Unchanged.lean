import RoadRouting.Proofs.Dataset.Writing

/-!
# Datasets that stay as they are

A dataset is unchanged when its manifest, the names of its tables of junctions and these tables read the
same (`Unchanged`). Then it has the same catalog (`Unchanged.load`). A file of another name beside the
manifest changes nothing (`Unchanged.put`).
-/

namespace RoadRouting.Dataset
set_option autoImplicit false
open Store (Path Disk Document)
open Grid (Cell Resolution)

/-- What is read of a dataset when its junctions are sampled is the same. -/
structure Unchanged (root : Path) (disk now : Disk) : Prop where
  manifest : now.read? (root.child manifestName) = disk.read? (root.child manifestName)
  listing : ∀ r, Catalog.scan now root r = Catalog.scan disk root r
  junctions : ∀ r cell, now.read? ((junctionDirectory root r).child (fileName cell)) =
    disk.read? ((junctionDirectory root r).child (fileName cell))

variable {root : Path} {disk now : Disk}

theorem Unchanged.refl (root : Path) (disk : Disk) : Unchanged root disk disk :=
  ⟨rfl, fun _ => rfl, fun _ _ => rfl⟩

theorem Unchanged.trans {later : Disk} (h : Unchanged root disk now) (h' : Unchanged root now later) :
    Unchanged root disk later :=
  ⟨h'.manifest.trans h.manifest, fun r => (h'.listing r).trans (h.listing r), fun r cell =>
    (h'.junctions r cell).trans (h.junctions r cell)⟩

/-- An unchanged dataset has the same catalog. -/
theorem Unchanged.load (h : Unchanged root disk now) : Catalog.load now root = Catalog.load disk root := by
  have hmanifest : Catalog.readManifest now root = Catalog.readManifest disk root := by
    unfold Catalog.readManifest
    simp only [h.manifest]
  unfold Catalog.load
  simp only [hmanifest, h.listing]

/-- What a table holds depends on what is read alone. -/
theorem rowsIfThere_congr {β : Type} {read : Table → Except Misfit (List β)} {file : Path}
    (h : now.read? file = disk.read? file) : rowsIfThere now read file = rowsIfThere disk read file := by
  unfold rowsIfThere Store.Files.isFile
  rw [h]
  cases hdoc : disk.read? file with
  | none => rfl
  | some doc =>
    unfold rowsIn
    rw [Store.Files.item?_of_read? (h.trans hdoc), Store.Files.item?_of_read? hdoc]

/-! ## The directory of a catalog -/

theorem addKey_root {c c' : Catalog} {key : String} (h : c.addKey key = .ok c') : c'.root = c.root := by
  unfold Catalog.addKey at h
  split at h
  · cases h
  · split at h
    · cases h
      rfl
    · cases h

theorem foldlM_addKey_root {keys : List String} {c c' : Catalog}
    (h : keys.foldlM Catalog.addKey c = .ok c') : c'.root = c.root := by
  induction keys generalizing c with
  | nil =>
    cases h
    rfl
  | cons key rest ih =>
    rw [List.foldlM_cons] at h
    cases hkey : c.addKey key with
    | error f => simp [hkey, bind, Except.bind] at h
    | ok next =>
      simp only [hkey, bind, Except.bind] at h
      rw [ih h, addKey_root hkey]

/-- A catalog keeps the directory of its dataset. -/
theorem root_of_load {c : Catalog} (h : Catalog.load disk root = .ok c) : c.root = root := by
  unfold Catalog.load at h
  cases hm : Catalog.readManifest disk root with
  | error f => simp [hm, bind, Except.bind] at h
  | ok manifest =>
    simp only [hm, bind, Except.bind] at h
    split at h
    · exact foldlM_addKey_root h
    · cases h

/-- The tables of junctions of an unchanged dataset read the same. -/
theorem Unchanged.rows (h : Unchanged root disk now) {c : Catalog} (hc : Catalog.load disk root = .ok c)
    (cell : Cell) : rowsIfThere now (readJunctions batchSize) (c.junctionFile cell) =
      rowsIfThere disk (readJunctions batchSize) (c.junctionFile cell) := by
  apply rowsIfThere_congr
  unfold Catalog.junctionFile
  rw [root_of_load hc]
  exact h.junctions _ _

/-! ## Other files -/

theorem load_of_unread (h : disk.read? (root.child manifestName) = none) :
    Catalog.load disk root = .error (.manifestMissing (root.child manifestName)) := by
  unfold Catalog.load Catalog.readManifest
  simp only [h]
  rfl

/-- A dataset with a manifest has a directory. -/
theorem isDirectory_of_load {c : Catalog} (h : Catalog.load disk root = .ok c) : disk.isDirectory root := by
  cases hl : disk.locate? (root.child manifestName) with
  | some there => exact Store.Files.isDirectory_of_locate?_child hl
  | none =>
    have hnone : disk.read? (root.child manifestName) = none := by
      simp [Store.Files.read?, Store.Files.item?, hl]
    rw [load_of_unread hnone] at h
    cases h

/-- A file of another name that is put beside the manifest does not change the dataset. -/
theorem Unchanged.put {name : String} (hname : name ≠ manifestName)
    (hd : disk.hasDirectory (root.location ++ [name]) = false) (doc : Document) :
    Unchanged root disk (disk.put (root.location ++ [name]) (.file doc)) := by
  constructor
  · apply Store.Files.read?_put_of_ne hd
    rw [location_manifest]
    simpa using hname
  · intro r
    unfold Catalog.scan
    rw [Store.Files.names_put hd]
    rw [junctionDirectory, Path.location_child _ (names_junctionDirectory r), List.dropLast_concat]
    simp
  · intro r cell
    apply Store.Files.read?_put_of_ne hd
    rw [junctionDirectory, (isTables_junctions r).location_file]
    simp

/-- The same when the file is written. -/
theorem Unchanged.write {name : String} (hname : Path.Names name) (hne : name ≠ manifestName)
    {doc : Document} (hw : disk.write? (root.child name) doc = some now) :
    Unchanged root disk now := by
  obtain ⟨-, hd, rfl⟩ := Store.Files.write?_eq_some hw
  rw [root.location_child hname] at hd ⊢
  exact .put hne hd doc

end RoadRouting.Dataset
