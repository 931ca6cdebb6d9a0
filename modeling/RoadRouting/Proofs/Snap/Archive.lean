import RoadRouting.Proofs.Store.Directories
import RoadRouting.Snap.Archive

/-!
# Taking an index back

An index that is taken back from where another one was archived has the entries of that one
(`Index.entries_of_saved`). Both files are written into one directory, and the second one leaves the
first as it is.
-/

namespace RoadRouting.Snap
set_option autoImplicit false
open Store (Disk Document Files Path)

theorem names_entriesFile : Path.Names entriesFile :=
  ⟨by decide, by decide, by decide +kernel, by decide⟩

theorem names_coordinatesFile : Path.Names coordinatesFile :=
  ⟨by decide, by decide, by decide +kernel, by decide⟩

theorem location_entriesFile_ne (dir : Path) :
    (dir.child entriesFile).location ≠ (dir.child coordinatesFile).location :=
  dir.location_child_ne names_entriesFile names_coordinatesFile (by decide)

theorem checkHeader_eq_ok {file : Path} {found expected : Header} {u : Unit}
    (h : checkHeader file found expected = .ok u) : found = expected := by
  unfold checkHeader at h
  split at h
  · assumption
  · cases h

/-- The two files of an archive read the same. -/
structure SameFiles (dir : Path) (disk disk' : Disk) : Prop where
  entries : disk'.read? (dir.child entriesFile) = disk.read? (dir.child entriesFile)
  coordinates : disk'.read? (dir.child coordinatesFile) = disk.read? (dir.child coordinatesFile)

namespace Index
variable {ix ix' : Index} {disk disk' : Disk} {dir : Path} {expected : Header} {options : Options}

/-- What an archived index leaves in its directory. -/
theorem reads_of_save (h : ix.save disk dir = (.ok (), disk')) :
    disk'.read? (dir.child entriesFile) = some (.entries ix.header ix.entries) ∧
      disk'.read? (dir.child coordinatesFile) = some (.coordinates ix.header ix.coordinateTable) := by
  unfold save at h
  split at h
  · cases h
  · split at h
    · cases h
    · rename_i disk₁ h1
      split at h
      · cases h
      · rename_i disk₂ h2
        cases h
        refine ⟨?_, Files.read?_write h2⟩
        rw [Files.read?_write_of_ne h2 (location_entriesFile_ne dir).symm]
        exact Files.read?_write h1

/-- What is taken back depends on the two files alone. -/
theorem load_congr (h : SameFiles dir disk disk') :
    load disk' dir expected options = load disk dir expected options := by
  unfold load
  simp only [h.entries, h.coordinates]

/-- Nothing is taken back when a file is not there. -/
theorem load_of_unread (h : disk.read? (dir.child entriesFile) = none ∨
    disk.read? (dir.child coordinatesFile) = none) : load disk dir expected options = .ok none := by
  unfold load
  rcases h with h | h
  · simp only [h]
    rfl
  · simp only [h]
    cases disk.read? (dir.child entriesFile) with
    | none => rfl
    | some entriesDoc => rfl

/-- Nothing is taken back after an index could not be archived. -/
theorem load_of_save_error {f : ArchiveFault} (h : ix.save disk dir = (.error f, disk')) :
    load disk' dir expected options = .ok none := by
  apply load_of_unread
  unfold save at h
  split at h
  · rename_i disk₁ hm
    cases h
    exact .inl (Files.read?_child_of_not_isDirectory (Files.makeDirectories_false hm) _)
  · split at h
    · rename_i hw
      cases h
      exact .inl (Files.read?_of_write?_eq_none hw)
    · split at h
      · rename_i hw
        cases h
        exact .inr (Files.read?_of_write?_eq_none hw)
      · cases h

/-- An index can be archived in a directory that is there, unless its files have the names of other
directories. -/
theorem save_ok (h : disk.isDirectory dir)
    (hentries : disk.hasDirectory (dir.location ++ [entriesFile]) = false)
    (hcoordinates : disk.hasDirectory (dir.location ++ [coordinatesFile]) = false) :
    ix.save disk dir = (.ok (),
      (disk.put (dir.location ++ [entriesFile]) (.file (.entries ix.header ix.entries))).put
        (dir.location ++ [coordinatesFile]) (.file (.coordinates ix.header ix.coordinateTable))) := by
  have h1 : (disk.put (dir.location ++ [entriesFile])
      (.file (.entries ix.header ix.entries))).isDirectory dir :=
    Files.isDirectory_mono (fun l hl => by rwa [Files.hasDirectory_put hentries]) h
  have hcoordinates1 : (disk.put (dir.location ++ [entriesFile])
      (.file (.entries ix.header ix.entries))).hasDirectory (dir.location ++ [coordinatesFile]) = false := by
    rwa [Files.hasDirectory_put hentries]
  unfold save
  simp only [Files.makeDirectories_of_isDirectory h, Files.write?_child h names_entriesFile hentries,
    Files.write?_child h1 names_coordinatesFile hcoordinates1]

/-- An index that is taken back is that of the entries in its file, with the header that both files
carry and nothing remembered. -/
theorem load_eq_some (h : load disk dir expected options = .ok (some ix)) :
    ∃ table, disk.read? (dir.child entriesFile) = some (.entries expected ix.entries) ∧
      disk.read? (dir.child coordinatesFile) = some (.coordinates expected table) ∧
        ix.header = expected ∧ ix.options = options ∧ ix.memo = ∅ := by
  unfold load at h
  simp only [bind, Except.bind] at h
  split at h
  · rename_i entriesDoc coordinatesDoc h1 h2
    cases entriesDoc with
    | entries header entries =>
      cases hc : checkHeader (dir.child entriesFile) header expected with
      | error f => simp [hc] at h
      | ok _ =>
        obtain rfl := checkHeader_eq_ok hc
        simp only [hc] at h
        split at h
        · rename_i table
          split at h
          · cases h
          · rename_i hc'
            obtain rfl := checkHeader_eq_ok hc'
            -- the checks of the coordinates can only fail
            split at h
            · cases h
            · split at h
              · cases h
              · cases h
                exact ⟨table, h1, h2, rfl, rfl, rfl⟩
        · cases h
    | _ => cases h
  · cases h

/-- An index that is taken back has the entries of the one that was archived, as long as the file of
the entries reads the same. -/
theorem entries_of_saved {disk'' : Disk} (hs : ix.save disk dir = (.ok (), disk'))
    (hsame : disk''.read? (dir.child entriesFile) = disk'.read? (dir.child entriesFile))
    (hl : load disk'' dir expected options = .ok (some ix')) : ix'.entries = ix.entries := by
  obtain ⟨-, h, -⟩ := load_eq_some hl
  rw [hsame, (reads_of_save hs).1, Option.some.injEq, Document.entries.injEq] at h
  exact h.2.symm

/-- An index is taken back under no other header than its own, though only one of its files be there. -/
theorem load_ne_of_header_ne {now : Disk} (hne : ix.header ≠ expected)
    (hs : ix.save disk dir = (.ok (), disk'))
    (hfile : now.read? (dir.child entriesFile) = disk'.read? (dir.child entriesFile) ∨
      now.read? (dir.child coordinatesFile) = disk'.read? (dir.child coordinatesFile)) :
    load now dir expected options ≠ .ok (some ix') := by
  obtain ⟨hentries, hcoordinates⟩ := reads_of_save hs
  intro hl
  obtain ⟨table, hentries', hcoordinates', -⟩ := load_eq_some hl
  rcases hfile with hsame | hsame
  · rw [hsame, hentries, Option.some.injEq, Document.entries.injEq] at hentries'
    exact hne hentries'.1
  · rw [hsame, hcoordinates, Option.some.injEq, Document.coordinates.injEq] at hcoordinates'
    exact hne hcoordinates'.1

/-- Where both files are there, it is refused with both headers. -/
theorem load_of_header_ne {now : Disk} (hne : ix.header ≠ expected)
    (hs : ix.save disk dir = (.ok (), disk')) (hsame : SameFiles dir disk' now) :
    load now dir expected options =
      .error (.defective (dir.child entriesFile) (.header ix.header expected)) := by
  obtain ⟨hentries, hcoordinates⟩ := reads_of_save hs
  have hcheck : checkHeader (dir.child entriesFile) ix.header expected =
      .error (.defective (dir.child entriesFile) (.header ix.header expected)) := if_neg hne
  rw [load_congr hsame]
  unfold load
  simp only [hentries, hcoordinates, hcheck]
  rfl

end Index
end RoadRouting.Snap
