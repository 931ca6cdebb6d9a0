import RoadRouting.Proofs.Dataset.Keys

/-!
# What writing leaves

A dataset can be written in a directory that is there or can be made, when nothing of another kind is in
the way (`Ready`); and so it stays, whatever networks are written there (`Written.ready`). Once the two
directories of tables are there, each table that is written can be read until it is written again, so
all tables of a network are there in the end (`writeCells_ok`, `writeNetwork_ok`).
-/

namespace RoadRouting.Dataset
set_option autoImplicit false
open Store (Path Disk Document Location)
open Grid (Cell Resolution)

/-! ## Room for a dataset -/

/-- The name of a directory of tables. -/
def IsTables (name : String) : Prop :=
  ∃ r : Resolution, name = "nodes_h3_" ++ toString r.val ∨ name = "edges_h3_" ++ toString r.val

/-- Nothing is in the way of a dataset: no file where a directory of tables belongs, and no directory
where a table or the manifest belongs. -/
structure Free (disk : Disk) (root : Path) : Prop where
  tables : ∀ name, IsTables name → ∀ doc, disk.at? (root.location ++ [name]) ≠ some (.file doc)
  files : ∀ name, IsTables name → ∀ cell,
    disk.hasDirectory (root.location ++ [name, fileName cell]) = false
  manifest : disk.hasDirectory (root.location ++ [manifestName]) = false

/-- A dataset can be written: its directory is there or can be made, and then nothing is in the way. -/
structure Ready (disk : Disk) (root : Path) : Prop where
  usable : root.isUsable
  short : ∀ part ∈ root.parts, Path.isName part
  made : (disk.make [] root.parts).1
  free : Free (disk.make [] root.parts).2 root

/-- What there may be after networks were written, or after that was tried, one after the other and at
any resolutions. -/
inductive Written (root : Path) : Disk → Prop
  | start {disk : Disk} : Ready disk root → Written root disk
  | write {disk : Disk} (r : Resolution) (js : List (Junction Point)) (rs : List (Road Float)) :
      Written root disk → Written root (writeNetwork disk root r js rs).2

/-- The directory of a dataset is there and nothing is in its way. -/
structure Site (disk : Disk) (root : Path) : Prop extends Free disk root where
  directory : disk.isDirectory root

section Names
variable {name : String}

theorem isTables_junctions (r : Resolution) : IsTables ("nodes_h3_" ++ toString r.val) := ⟨r, .inl rfl⟩

theorem isTables_roads (r : Resolution) : IsTables ("edges_h3_" ++ toString r.val) := ⟨r, .inr rfl⟩

theorem IsTables.names (h : IsTables name) : Path.Names name := by
  obtain ⟨r, rfl | rfl⟩ := h
  · exact names_junctionDirectory r
  · exact names_roadDirectory r

theorem IsTables.ne_manifest (h : IsTables name) : name ≠ manifestName := by
  obtain ⟨r, rfl | rfl⟩ := h
  · revert r
    decide +kernel
  · revert r
    decide +kernel

theorem location_manifest (root : Path) :
    (root.child manifestName).location = root.location ++ [manifestName] :=
  root.location_child names_manifestName

theorem IsTables.location_file (h : IsTables name) (root : Path) (cell : Cell) :
    ((root.child name).child (fileName cell)).location = root.location ++ [name, fileName cell] := by
  rw [Path.location_child _ (names_fileName cell), Path.location_child _ h.names, List.append_assoc,
    List.singleton_append]

end Names

section Steps
variable {disk disk' : Disk} {root : Path} {name : String} {r : Resolution}

/-! ## Nothing gets in the way -/

theorem Free.put_directory (h : Free disk root) (hname : IsTables name) :
    Free (disk.put (root.location ++ [name]) .directory) root := by
  constructor
  · intro name' hname' doc
    rw [Store.Files.at?_put, if_neg (by simp)]
    split
    · simp
    · exact h.tables name' hname' doc
  · intro name' hname' cell
    rw [Store.Files.hasDirectory_put_directory, h.files name' hname' cell]
    simp
  · rw [Store.Files.hasDirectory_put_directory, h.manifest]
    simp [hname.ne_manifest]

theorem Free.put_file (h : Free disk root) {here : Location} (hd : disk.hasDirectory here = false)
    (hhere : ∀ name, IsTables name → here ≠ root.location ++ [name]) (doc : Document) :
    Free (disk.put here (.file doc)) root := by
  constructor
  · intro name hname doc'
    rw [Store.Files.at?_put, if_neg (by simp), if_neg (hhere name hname)]
    exact h.tables name hname doc'
  · intro name hname cell
    rw [Store.Files.hasDirectory_put hd]
    exact h.files name hname cell
  · rw [Store.Files.hasDirectory_put hd]
    exact h.manifest

/-- Writing a file keeps the directories. -/
theorem hasDirectory_write {p : Path} {doc : Document} (h : disk.write? p doc = some disk') (l : Location) :
    disk'.hasDirectory l = disk.hasDirectory l := by
  obtain ⟨-, hd, rfl⟩ := Store.Files.write?_eq_some h
  exact Store.Files.hasDirectory_put hd l

theorem isDirectory_write {p q : Path} {doc : Document} (h : disk.write? p doc = some disk')
    (hq : disk.isDirectory q) : disk'.isDirectory q :=
  Store.Files.isDirectory_mono (fun l hl => by rw [hasDirectory_write h, hl]) hq

theorem Site.write (h : Site disk root) {p : Path} {doc : Document} (hw : disk.write? p doc = some disk')
    (hp : ∀ name, IsTables name → p.location ≠ root.location ++ [name]) : Site disk' root := by
  refine ⟨?_, isDirectory_write hw h.directory⟩
  obtain ⟨-, hd, rfl⟩ := Store.Files.write?_eq_some hw
  exact h.toFree.put_file hd hp doc

/-- A directory of tables is made if it is not there. -/
theorem Site.makeDirectories (h : Site disk root) (hname : IsTables name) :
    ∃ disk', disk.makeDirectories (root.child name) = (true, disk') ∧ Site disk' root ∧
      disk'.isDirectory (root.child name) ∧ ∀ p, disk.isDirectory p → disk'.isDirectory p := by
  obtain ⟨disk', hmake, hthere, rfl | rfl⟩ :=
    Store.Files.makeDirectories_child h.directory hname.names (h.tables name hname)
  · exact ⟨disk', hmake, h, hthere, fun _ hp => hp⟩
  · have hkeeps : ∀ p, disk.isDirectory p →
        (disk.put (root.location ++ [name]) .directory).isDirectory p := by
      intro p hp
      refine Store.Files.isDirectory_mono (fun l hl => ?_) hp
      rw [Store.Files.hasDirectory_put_directory, hl, Bool.or_true]
    exact ⟨_, hmake, ⟨h.toFree.put_directory hname, hkeeps root h.directory⟩, hthere, hkeeps⟩

/-- Where a dataset can be written, making an entry of its directory starts from a site. -/
theorem Ready.site (h : Ready disk root) : ∃ made, Site made root ∧
    ∀ name, IsTables name → disk.makeDirectories (root.child name) = made.makeDirectories (root.child name) := by
  obtain ⟨husable, hshort, hmade, hfree⟩ := h
  rcases hm : disk.make [] root.parts with ⟨ok, made⟩
  rw [hm] at hmade hfree
  obtain rfl : ok = true := hmade
  have hmake {name : String} (hname : Path.Names name) :=
    Store.Files.makeDirectories_child_of_make husable hshort hm hname
  exact ⟨made, ⟨hfree, (hmake names_manifestName).1⟩, fun name hname => (hmake hname.names).2⟩

theorem Site.ready (h : Site disk root) (hshort : ∀ part ∈ root.parts, Path.isName part) :
    Ready disk root := by
  obtain ⟨husable, hpasses, hdirectory⟩ := Store.Files.isDirectory_iff.1 h.directory
  have hmake : disk.make [] root.parts = (true, disk) := Store.Files.make_of_passes hpasses hdirectory
  exact ⟨husable, hshort, by rw [hmake], by rw [hmake]; exact h.toFree⟩

/-! ## Tables -/

/-- A site with the directories of tables of a resolution. -/
structure Prepared (disk : Disk) (root : Path) (r : Resolution) : Prop extends Site disk root where
  junctions : disk.isDirectory (junctionDirectory root r)
  roads : disk.isDirectory (roadDirectory root r)

/-- The tables of a cell are there. -/
structure Stored (disk : Disk) (root : Path) (r : Resolution) (js : List (Cell × Junction Point))
    (rs : List (Cell × Road Float)) (cell : Cell) : Prop where
  junctions : disk.read? ((junctionDirectory root r).child (fileName cell)) =
    some (.table (junctionTable (within cell js)))
  roads : disk.read? ((roadDirectory root r).child (fileName cell)) =
    some (.table (roadTable (within cell rs)))

/-- A table is written in a directory that is there. -/
theorem Prepared.writeTable (h : Prepared disk root r) (hname : IsTables name)
    (hthere : disk.isDirectory (root.child name)) (cell : Cell) (t : Table) :
    ∃ disk', writeTable disk (root.child name) cell t = (.ok (), disk') ∧ Prepared disk' root r ∧
      disk.write? ((root.child name).child (fileName cell)) (.table t) = some disk' := by
  have hplace : disk.hasDirectory ((root.child name).location ++ [fileName cell]) = false := by
    have hfree := h.files name hname cell
    rwa [Path.location_child _ hname.names, List.append_assoc, List.singleton_append]
  have hw := Store.Files.write?_child hthere (names_fileName cell) hplace (.table t)
  refine ⟨_, ?_, ⟨h.toSite.write hw ?_, isDirectory_write hw h.junctions, isDirectory_write hw h.roads⟩, hw⟩
  · simp only [Dataset.writeTable, Store.Files.makeDirectories_of_isDirectory hthere, hw]
  · intro name' _
    rw [hname.location_file]
    simp

theorem writeManifest_ok (h : Site disk root) (r : Resolution) (cells : List Cell) :
    ∃ disk', writeManifest disk root r cells = (.ok (), disk') ∧ Site disk' root ∧
      disk.write? (root.child manifestName) (.json (Manifest.toJson r cells)) = some disk' := by
  have hw := Store.Files.write?_child h.directory names_manifestName h.manifest
    (.json (Manifest.toJson r cells))
  refine ⟨_, ?_, h.write hw ?_, hw⟩
  · simp only [writeManifest, Store.Files.makeDirectories_of_isDirectory h.directory, hw]
  · intro name hname
    rw [location_manifest]
    simp [hname.ne_manifest.symm]

variable {js : List (Cell × Junction Point)} {rs : List (Cell × Road Float)} {cell : Cell}

/-- Tables stay when something else is written. -/
theorem Stored.write (h : Stored disk root r js rs cell) {p : Path} {doc : Document}
    (hw : disk.write? p doc = some disk')
    (hp : ∀ name, IsTables name → p.location ≠ root.location ++ [name, fileName cell]) :
    Stored disk' root r js rs cell := by
  have hkeeps {name : String} (hname : IsTables name) :
      disk'.read? ((root.child name).child (fileName cell)) =
        disk.read? ((root.child name).child (fileName cell)) := by
    refine Store.Files.read?_write_of_ne hw ?_
    rw [hname.location_file]
    exact hp name hname
  exact ⟨(hkeeps (isTables_junctions r)).trans h.junctions, (hkeeps (isTables_roads r)).trans h.roads⟩

/-- Writing the tables of a cell keeps those of the others. -/
theorem writeCell_ok (h : Prepared disk root r) (js : List (Cell × Junction Point))
    (rs : List (Cell × Road Float)) (cell : Cell) :
    ∃ disk₁ disk', writeJunctions disk root r cell (within cell js) = (.ok (), disk₁) ∧
      writeRoads disk₁ root r cell (within cell rs) = (.ok (), disk') ∧ Prepared disk' root r ∧
      ∀ c, c = cell ∨ Stored disk root r js rs c → Stored disk' root r js rs c := by
  obtain ⟨disk₁, hjs, h₁, hw₁⟩ := h.writeTable (isTables_junctions r) h.junctions cell
    (junctionTable (within cell js))
  obtain ⟨disk', hrs, h', hw'⟩ := h₁.writeTable (isTables_roads r) h₁.roads cell
    (roadTable (within cell rs))
  refine ⟨disk₁, disk', hjs, hrs, h', ?_⟩
  have hself : Stored disk' root r js rs cell := by
    constructor
    · -- The roads are written after the junctions, to another place.
      have hne : ((roadDirectory root r).child (fileName cell)).location ≠
          ((junctionDirectory root r).child (fileName cell)).location := by
        rw [roadDirectory, junctionDirectory, (isTables_roads r).location_file,
          (isTables_junctions r).location_file]
        simp
      exact (Store.Files.read?_write_of_ne hw' hne).trans (Store.Files.read?_write hw₁)
    · exact Store.Files.read?_write hw'
  intro c hc
  by_cases hcell : c = cell
  · rw [hcell]
    exact hself
  · have hplace {name : String} (hname : IsTables name) : ∀ name', IsTables name' →
        ((root.child name).child (fileName cell)).location ≠ root.location ++ [name', fileName c] := by
      intro name' _ heq
      rw [hname.location_file, List.append_right_inj] at heq
      injection heq with _ hfile
      injection hfile with hfile
      exact hcell (fileName_injective hfile).symm
    have hstored := hc.resolve_left hcell
    exact (hstored.write hw₁ (hplace (isTables_junctions r))).write hw' (hplace (isTables_roads r))

/-- After the cells were written, their tables are there, and so are the tables that were there. -/
theorem writeCells_ok (h : Prepared disk root r) (js : List (Cell × Junction Point))
    (rs : List (Cell × Road Float)) (cells : List Cell) :
    ∃ disk', writeCells root r js rs cells disk = (.ok (), disk') ∧ Prepared disk' root r ∧
      ∀ c, c ∈ cells ∨ Stored disk root r js rs c → Stored disk' root r js rs c := by
  induction cells generalizing disk with
  | nil => exact ⟨disk, rfl, h, fun c hc => hc.resolve_left (by simp)⟩
  | cons cell rest ih =>
    obtain ⟨disk₁, disk₂, hjs, hrs, h₂, hstored⟩ := writeCell_ok h js rs cell
    obtain ⟨disk', hrest, h', hall⟩ := ih h₂
    refine ⟨disk', ?_, h', fun c hc => hall c ?_⟩
    · simp only [writeCells, hjs, hrs, hrest]
    · rw [List.mem_cons, or_right_comm] at hc
      rcases hc with hc | hc
      · exact .inr (hstored c hc)
      · exact .inl hc

end Steps

/-! ## Networks -/

section Networks
variable {disk : Disk} {root : Path} {r : Resolution} {js : List (Junction Point)} {rs : List (Road Float)}

/-- A network whose rows have cells is written: its manifest and the tables of its cells are there. -/
theorem writeNetwork_ok (h : Ready disk root) {placed : List (Cell × Junction Point)}
    {roads : List (Cell × Road Float)} (hlay : layOut r js rs = .ok (placed, roads)) :
    ∃ disk', writeNetwork disk root r js rs =
        (.ok ⟨(cellsOf placed).length, js.length, rs.length⟩, disk') ∧
      Site disk' root ∧
      disk'.read? (root.child manifestName) = some (.json (Manifest.toJson r (cellsOf placed))) ∧
      ∀ cell ∈ cellsOf placed, Stored disk' root r placed roads cell := by
  obtain ⟨made, hsite, hsame⟩ := h.site
  obtain ⟨disk₁, hmake₁, h₁, hjunctions, -⟩ := hsite.makeDirectories (isTables_junctions r)
  obtain ⟨disk₂, hmake₂, h₂, hroads, hkeeps⟩ := h₁.makeDirectories (isTables_roads r)
  obtain ⟨disk₃, hcells, h₃, hstored⟩ := writeCells_ok ⟨h₂, hkeeps _ hjunctions, hroads⟩ placed roads
    (cellsOf placed)
  obtain ⟨disk', hmanifest, h', hw⟩ := writeManifest_ok h₃.toSite r (cellsOf placed)
  rw [← hsame _ (isTables_junctions r)] at hmake₁
  refine ⟨disk', ?_, h', Store.Files.read?_write hw, fun cell hcell => ?_⟩
  · simp only [writeNetwork, hlay, junctionDirectory, roadDirectory, hmake₁, hmake₂, hcells, hmanifest]
  · refine (hstored cell (.inl hcell)).write hw fun name hname => ?_
    rw [location_manifest]
    simp

/-- When a row has no cell, nothing is written. -/
theorem writeNetwork_error {fault : Fault} (hlay : layOut r js rs = .error fault) :
    writeNetwork disk root r js rs = (.error fault, disk) := by
  simp only [writeNetwork, hlay]

/-- Whatever is written, networks can be written afterwards. -/
theorem Ready.write (h : Ready disk root) (r : Resolution) (js : List (Junction Point))
    (rs : List (Road Float)) : Ready (writeNetwork disk root r js rs).2 root := by
  cases hlay : layOut r js rs with
  | error fault =>
    rw [writeNetwork_error hlay]
    exact h
  | ok rows =>
    obtain ⟨disk', hwrite, hsite, -⟩ := writeNetwork_ok h hlay
    rw [hwrite]
    exact hsite.ready h.short

theorem Written.ready (h : Written root disk) : Ready disk root := by
  induction h with
  | start h => exact h
  | write r js rs _ ih => exact ih.write r js rs

end Networks
end RoadRouting.Dataset
