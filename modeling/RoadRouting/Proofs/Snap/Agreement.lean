import Mathlib.Data.Finset.Card
import Mathlib.Data.List.Induction
import RoadRouting.Proofs.Float.Bits
import RoadRouting.Proofs.Snap.Archive
import RoadRouting.Proofs.Snap.Packing
import RoadRouting.Proofs.Store.Directories

/-!
# What a loaded index says of its files

An index is taken back exactly when both files carry the expected header and their contents pass the
checks (`load_eq_some_iff`, `Accepted`): as many coordinates as entries, and for each entry the
coordinates of its node and a cell. The checks ask each entry for its coordinates, and not the other
way round. So a node that is listed twice among the entries leaves room for coordinates of a node that
is not there, and what is loaded is coherent just when there is no such node (`load_coherent_iff`).
-/

namespace RoadRouting
set_option autoImplicit false

namespace Point
variable {p q r : Point}

theorem beq_iff : (p == q) = true ↔ (p.lat == q.lat) = true ∧ (p.lon == q.lon) = true := by
  show ((p.lat == q.lat) && (p.lon == q.lon)) = true ↔ _
  exact Bool.and_eq_true_iff

theorem beq_symm (h : (p == q) = true) : (q == p) = true := by
  obtain ⟨hlat, hlon⟩ := beq_iff.1 h
  exact beq_iff.2 ⟨Binary64.beq_symm hlat, Binary64.beq_symm hlon⟩

theorem beq_trans (h : (p == q) = true) (h' : (q == r) = true) : (p == r) = true := by
  obtain ⟨hlat, hlon⟩ := beq_iff.1 h
  obtain ⟨hlat', hlon'⟩ := beq_iff.1 h'
  exact beq_iff.2 ⟨Binary64.beq_trans hlat hlat', Binary64.beq_trans hlon hlon'⟩

/-- A point with numbers for coordinates is itself. -/
theorem beq_self (hlat : p.lat.isNaN = false) (hlon : p.lon.isNaN = false) : (p == p) = true :=
  beq_iff.2 ⟨Binary64.beq_iff.2 ⟨hlat, hlat, rfl⟩, Binary64.beq_iff.2 ⟨hlon, hlon, rfl⟩⟩

theorem isNumeric_iff : p.isNumeric = true ↔ p.lat.isNaN = false ∧ p.lon.isNaN = false := by
  simp [isNumeric]

/-- A point that is equal to anything has numbers for coordinates. -/
theorem isNumeric_of_beq (h : (p == q) = true) : q.isNumeric = true := by
  obtain ⟨hlat, hlon⟩ := beq_iff.1 h
  obtain ⟨-, hlat', -⟩ := Binary64.beq_iff.1 hlat
  obtain ⟨-, hlon', -⟩ := Binary64.beq_iff.1 hlon
  exact isNumeric_iff.2 ⟨hlat', hlon'⟩

end Point

namespace Snap
open Store (Disk Document Files Path)

/-! ## Coordinates by node -/

section Coordinates
variable {β : Type} (key : β → Int64) (position : β → Point)

/-- Of several coordinates for one node the last ones count. -/
theorem getElem?_foldl_insert (xs : List β) (id : Int64) :
    (xs.foldl (fun m x => m.insert (key x) (position x)) (∅ : Std.HashMap Int64 Point))[id]? =
      ((xs.filter (key · = id)).getLast?).map position := by
  induction xs using List.reverseRecOn with
  | nil => simp
  | append_singleton xs x ih =>
    rw [List.foldl_append, List.foldl_cons, List.foldl_nil, Std.HashMap.getElem?_insert, ih,
      List.filter_append]
    by_cases hx : key x = id
    · simp [hx]
    · simp [hx]

variable {key position}

theorem isSome_foldl_insert {xs : List β} {id : Int64} :
    ((xs.foldl (fun m x => m.insert (key x) (position x)) (∅ : Std.HashMap Int64 Point))[id]?).isSome ↔
      id ∈ xs.map key := by
  rw [getElem?_foldl_insert, Option.isSome_map, List.getLast?_filter, List.find?_isSome]
  simp only [List.mem_reverse, decide_eq_true_eq, List.mem_map]

theorem getElem?_foldl_insert_of_mem {xs : List β} (hxs : (xs.map key).Nodup) {x : β} (hx : x ∈ xs) :
    (xs.foldl (fun m x => m.insert (key x) (position x)) (∅ : Std.HashMap Int64 Point))[key x]? =
      some (position x) := by
  have honly : xs.filter (key · = key x) = [x] := by
    obtain ⟨before, after, rfl⟩ := List.append_of_mem hx
    rw [List.map_append, List.map_cons, List.nodup_middle, List.nodup_cons, List.mem_append,
      not_or] at hxs
    have hnone : ∀ ys : List β, key x ∉ ys.map key → ys.filter (key · = key x) = [] := by
      intro ys hys
      rw [List.filter_eq_nil_iff]
      intro y hy heq
      exact hys (of_decide_eq_true heq ▸ List.mem_map_of_mem hy)
    rw [List.filter_append, List.filter_cons_of_pos (by simp), hnone _ hxs.1.1, hnone _ hxs.1.2]
    rfl
  rw [getElem?_foldl_insert, honly]
  rfl

end Coordinates

/-- A map has as many items as it has keys. -/
theorem size_eq_card {m : Std.HashMap Int64 Point} {ids : List Int64}
    (h : ∀ id, (m[id]?).isSome ↔ id ∈ ids) : m.size = ids.toFinset.card := by
  have hkeys : m.keys.toFinset = ids.toFinset := by
    ext id
    rw [List.mem_toFinset, List.mem_toFinset, ← h, Std.HashMap.mem_keys,
      Std.HashMap.mem_iff_isSome_getElem?]
  rw [← hkeys, List.toFinset_card_of_nodup Std.HashMap.nodup_keys, Std.HashMap.length_keys]

/-! ## The checks -/

/-- The coordinates that a table records. -/
def recorded (table : List (Int64 × Point)) : Std.HashMap Int64 Point :=
  table.foldl (fun m r => m.insert r.1 r.2) ∅

theorem isSome_recorded {table : List (Int64 × Point)} {id : Int64} :
    ((recorded table)[id]?).isSome ↔ id ∈ table.map (·.1) :=
  isSome_foldl_insert

theorem size_recorded (table : List (Int64 × Point)) :
    (recorded table).size = (table.map (·.1)).toFinset.card :=
  size_eq_card fun _ => isSome_recorded

section Checks
variable {entries : List Entry} {coordinates : Std.HashMap Int64 Point}

theorem Entry.defect?_eq_none_iff {e : Entry} : e.defect? coordinates = none ↔
    (∃ p, coordinates[e.id]? = some p ∧ (p == e.position) = true) ∧
      ∃ cell, Grid.Cell.ofRaw e.partition = .ok cell := by
  have hany : (coordinates[e.id]?.any (· == e.position)) = true ↔
      ∃ p, coordinates[e.id]? = some p ∧ (p == e.position) = true := Option.any_eq_true _ _
  unfold Entry.defect?
  by_cases h : (coordinates[e.id]?.any (· == e.position)) = true
  · rw [if_neg (by simp [h])]
    cases hc : Grid.Cell.ofRaw e.partition with
    | ok cell => simp [hany.1 h]
    | error r => simp
  · rw [if_pos (by simpa using h)]
    simp [← hany, h]

/-- An entry with a defect is found whatever the order in which they are visited. -/
theorem firstDefect?_eq_none_iff : firstDefect? entries coordinates = none ↔
    ∀ e ∈ entries, e.defect? coordinates = none := by
  unfold firstDefect?
  split
  · rename_i h
    simpa using h
  · simp only [List.findSome?_eq_none_iff, (visitOrder_perm entries).mem_iff]

end Checks

/-- What is asked of the contents of the two files. -/
structure Accepted (entries : List Entry) (table : List (Int64 × Point)) : Prop where
  count : table.length = entries.length
  position : ∀ e ∈ entries, ∃ p, (recorded table)[e.id]? = some p ∧ (p == e.position) = true
  partition : ∀ e ∈ entries, ∃ cell, Grid.Cell.ofRaw e.partition = .ok cell

/-- Entries that are taken back can be packed. -/
theorem Accepted.isPackable {entries : List Entry} {table : List (Int64 × Point)}
    (h : Accepted entries table) : isPackable entries = true := by
  apply isPackable_of_numeric
  intro e he
  obtain ⟨p, -, hp⟩ := h.position e he
  exact Point.isNumeric_of_beq hp

section Load
variable {disk : Disk} {dir : Path} {expected : Header} {options : Options} {ix : Index}
  {entries : List Entry} {table : List (Int64 × Point)}

theorem checkHeader_self (file : Path) (h : Header) : checkHeader file h h = .ok () :=
  if_pos rfl

/-- Two files with the expected header make an index when their contents are accepted; otherwise one
of them is at fault. -/
theorem load_of_reads (options : Options)
    (hentries : disk.read? (dir.child entriesFile) = some (.entries expected entries))
    (htable : disk.read? (dir.child coordinatesFile) = some (.coordinates expected table)) :
    (Accepted entries table ∧ Index.load disk dir expected options =
        .ok (some { Index.ofPacked entries expected options with coordinates := recorded table })) ∨
      ¬ Accepted entries table ∧ ∃ file defect,
        Index.load disk dir expected options = .error (.defective file defect) := by
  unfold Index.load
  simp only [hentries, htable, checkHeader_self, bind, Except.bind]
  by_cases hcount : table.length = entries.length
  · rw [if_neg (by simpa using hcount)]
    have haccepted : Accepted entries table ↔ firstDefect? entries (recorded table) = none := by
      rw [firstDefect?_eq_none_iff]
      constructor
      · intro h e he
        exact Entry.defect?_eq_none_iff.2 ⟨h.position e he, h.partition e he⟩
      · intro h
        constructor
        · exact hcount
        · intro e he
          exact (Entry.defect?_eq_none_iff.1 (h e he)).1
        · intro e he
          exact (Entry.defect?_eq_none_iff.1 (h e he)).2
    rw [haccepted]
    cases hd : firstDefect? entries (recorded table) with
    | none =>
      refine .inl ⟨rfl, ?_⟩
      unfold recorded at hd ⊢
      simp only [hd]
      rfl
    | some found =>
      obtain ⟨file, defect⟩ := found
      refine .inr ⟨nofun, dir.child file, defect, ?_⟩
      unfold recorded at hd
      simp only [hd]
  · rw [if_pos hcount]
    exact .inr ⟨fun h => hcount h.count, _, _, rfl⟩

/-- An index is taken back exactly when both files carry the expected header and pass the checks. -/
theorem load_eq_some_iff : Index.load disk dir expected options = .ok (some ix) ↔
    ∃ table, disk.read? (dir.child entriesFile) = some (.entries expected ix.entries) ∧
      disk.read? (dir.child coordinatesFile) = some (.coordinates expected table) ∧
      Accepted ix.entries table ∧
      ix = { Index.ofPacked ix.entries expected options with coordinates := recorded table } := by
  constructor
  · intro h
    obtain ⟨table, hentries, htable, -⟩ := Index.load_eq_some h
    rcases load_of_reads options hentries htable with ⟨haccepted, hl⟩ | ⟨-, _, _, hl⟩
    · rw [hl] at h
      exact ⟨table, hentries, htable, haccepted, (Option.some.inj (Except.ok.inj h)).symm⟩
    · rw [hl] at h
      cases h
  · rintro ⟨table, hentries, htable, haccepted, hix⟩
    rcases load_of_reads options hentries htable with ⟨-, hl⟩ | ⟨hnot, -⟩
    · rw [hl, ← hix]
    · exact absurd haccepted hnot

end Load

/-! ## Coherence -/

namespace Index

/-- The coordinates of an index are those of its entries, and no others. -/
structure Coherent (ix : Index) : Prop where
  listed : ∀ id p, (∃ q, ix.coordinate? id = some q ∧ (q == p) = true) ↔
    ∃ e ∈ ix.entries, e.id = id ∧ (e.position == p) = true
  ids : ∀ id, (ix.coordinate? id).isSome ↔ ∃ e ∈ ix.entries, e.id = id

/-- The nodes of the entries. -/
def nodes (ix : Index) : List Int64 := ix.entries.map (·.id)

variable {disk : Disk} {dir : Path} {expected : Header} {options : Options} {ix : Index}

theorem mem_nodes {id : Int64} : id ∈ ix.nodes ↔ ∃ e ∈ ix.entries, e.id = id := List.mem_map

/-- An index in which each entry has its coordinates is coherent if there are no others. -/
theorem Coherent.of_nodes
    (hposition : ∀ e ∈ ix.entries, ∃ p, ix.coordinate? e.id = some p ∧ (p == e.position) = true)
    (hids : ∀ id, (ix.coordinate? id).isSome ↔ id ∈ ix.nodes) : ix.Coherent := by
  refine ⟨?_, fun id => (hids id).trans mem_nodes⟩
  intro id p
  constructor
  · rintro ⟨q, hq, hqp⟩
    obtain ⟨e, he, rfl⟩ := mem_nodes.1 ((hids id).1 (by rw [hq]; rfl))
    obtain ⟨q', hq', hqe⟩ := hposition e he
    rw [hq, Option.some.injEq] at hq'
    subst hq'
    exact ⟨e, he, rfl, Point.beq_trans (Point.beq_symm hqe) hqp⟩
  · rintro ⟨e, he, rfl, hep⟩
    obtain ⟨q, hq, hqe⟩ := hposition e he
    exact ⟨q, hq, Point.beq_trans hqe hep⟩

/-- What holds of an index that is taken back. Each entry has the coordinates of its node; but there
may be coordinates of other nodes, unless there are no more of them than nodes among the entries. -/
theorem load_coherent_iff (h : load disk dir expected options = .ok (some ix)) :
    (∃ table, disk.read? (dir.child entriesFile) = some (.entries expected ix.entries) ∧
      disk.read? (dir.child coordinatesFile) = some (.coordinates expected table)) ∧
    (∀ e ∈ ix.entries, ∃ cell, Grid.Cell.ofRaw e.partition = .ok cell) ∧
    (∀ e ∈ ix.entries, ∃ p, ix.coordinate? e.id = some p ∧ (p == e.position) = true) ∧
    (ix.Coherent ↔ ix.coordinates.size = ix.nodes.toFinset.card) ∧
    (ix.nodes.Nodup → ix.Coherent) := by
  obtain ⟨table, hentries, htable, haccepted, hix⟩ := load_eq_some_iff.1 h
  have hcoordinates : ix.coordinates = recorded table := by rw [hix]
  have hposition : ∀ e ∈ ix.entries, ∃ p, ix.coordinate? e.id = some p ∧ (p == e.position) = true := by
    unfold coordinate?
    rw [hcoordinates]
    exact haccepted.position
  have hsome : ∀ id, (ix.coordinate? id).isSome ↔ id ∈ table.map (·.1) := by
    intro id
    unfold coordinate?
    rw [hcoordinates, isSome_recorded]
  have hsize : ix.coordinates.size = (table.map (·.1)).toFinset.card := by
    rw [hcoordinates, size_recorded]
  have hsubset : ix.nodes.toFinset ⊆ (table.map (·.1)).toFinset := by
    intro id hid
    obtain ⟨e, he, rfl⟩ := mem_nodes.1 (List.mem_toFinset.1 hid)
    obtain ⟨p, hp, -⟩ := hposition e he
    rw [List.mem_toFinset, ← hsome, hp]
    rfl
  have hiff : ix.Coherent ↔ ix.coordinates.size = ix.nodes.toFinset.card := by
    rw [hsize]
    constructor
    · intro hc
      congr 1
      ext id
      rw [List.mem_toFinset, List.mem_toFinset, ← hsome, hc.ids, mem_nodes]
    · intro hcard
      have heq := Finset.eq_of_subset_of_card_le hsubset hcard.le
      apply Coherent.of_nodes hposition
      intro id
      rw [hsome, ← List.mem_toFinset, ← heq, List.mem_toFinset]
  refine ⟨⟨table, hentries, htable⟩, haccepted.partition, hposition, hiff, ?_⟩
  intro hnodup
  rw [hiff, hsize]
  -- without repetitions there is no room for other nodes
  apply Nat.le_antisymm
  · calc (table.map (·.1)).toFinset.card
      _ ≤ table.length := (List.toFinset_card_le _).trans_eq (List.length_map _)
      _ = ix.nodes.length := by rw [haccepted.count, nodes, List.length_map]
      _ = ix.nodes.toFinset.card := (List.toFinset_card_of_nodup hnodup).symm
  · exact Finset.card_le_card hsubset

end Index

/-! ## An index with coordinates of another node -/

namespace Mixed

/-- A node that is listed twice. -/
def entry : Entry := ⟨1, ⟨0.5, 0.5⟩, 0x8001fffffffffff⟩

/-- The coordinates of that node and of another one. -/
def table : List (Int64 × Point) := [(1, ⟨0.5, 0.5⟩), (2, ⟨0.25, 0.25⟩)]

def header : Header := ⟨1, 0, 1, 0, 1, 0⟩

def options : Options := ⟨10, 10, 6⟩

/-- The two files, of which each belongs to an index of its own. -/
def files : Disk :=
  (Files.empty.put [entriesFile] (.file (.entries header [entry, entry]))).put [coordinatesFile]
    (.file (.coordinates header table))

def loaded : Index :=
  { Index.ofPacked [entry, entry] header options with coordinates := recorded table }

theorem reads : files.read? (Path.child ⟨[]⟩ entriesFile) = some (.entries header [entry, entry]) ∧
    files.read? (Path.child ⟨[]⟩ coordinatesFile) = some (.coordinates header table) := by
  have hroot := files.isDirectory_root
  unfold Files.read?
  rw [Files.item?_child hroot names_entriesFile, Files.item?_child hroot names_coordinatesFile]
  simp [files, Files.at?_put, Path.location, entriesFile, coordinatesFile]

theorem recorded_table : (recorded table)[(1 : Int64)]? = some ⟨0.5, 0.5⟩ ∧
    (recorded table)[(2 : Int64)]? = some ⟨0.25, 0.25⟩ := by
  unfold recorded
  rw [getElem?_foldl_insert, getElem?_foldl_insert]
  exact ⟨rfl, rfl⟩

theorem accepted : Accepted [entry, entry] table where
  count := rfl
  position := by
    intro e he
    obtain rfl : e = entry := by simpa using he
    exact ⟨⟨0.5, 0.5⟩, recorded_table.1, by decide +kernel⟩
  partition := by
    intro e he
    obtain rfl : e = entry := by simpa using he
    exact ⟨⟨entry.partition, by decide +kernel⟩, by rfl⟩

theorem load_files : Index.load files ⟨[]⟩ header options = .ok (some loaded) :=
  load_eq_some_iff.2 ⟨table, reads.1, reads.2, accepted, rfl⟩

theorem load_coherent_iff_files :
    Index.load files ⟨[]⟩ header options = .ok (some loaded) ∧
    (∃ table, files.read? (Path.child ⟨[]⟩ entriesFile) = some (.entries header loaded.entries) ∧
      files.read? (Path.child ⟨[]⟩ coordinatesFile) = some (.coordinates header table)) ∧
    (∀ e ∈ loaded.entries, ∃ cell, Grid.Cell.ofRaw e.partition = .ok cell) ∧
    (∀ e ∈ loaded.entries, ∃ p, loaded.coordinate? e.id = some p ∧ (p == e.position) = true) ∧
    (loaded.Coherent ↔ loaded.coordinates.size = loaded.nodes.toFinset.card) ∧
    (loaded.nodes.Nodup → loaded.Coherent) :=
  ⟨load_files, Index.load_coherent_iff load_files⟩

/-- The two files are taken back although the second one has a node that the first one lacks. -/
theorem not_all_coherent :
    ¬ ∀ (disk : Disk) (dir : Path) (expected : Header) (options : Options) (ix : Index),
      Index.load disk dir expected options = .ok (some ix) →
        (∃ table, disk.read? (dir.child entriesFile) = some (.entries expected ix.entries) ∧
          disk.read? (dir.child coordinatesFile) = some (.coordinates expected table)) ∧
        (∀ e ∈ ix.entries, ∃ cell, Grid.Cell.ofRaw e.partition = .ok cell) ∧ ix.Coherent := by
  intro hall
  obtain ⟨-, -, hcoherent⟩ := hall _ _ _ _ _ load_files
  have hids := hcoherent.ids 2
  have hlisted : (loaded.coordinate? 2).isSome := by
    unfold Index.coordinate? loaded
    rw [recorded_table.2]
    rfl
  obtain ⟨e, he, hid⟩ := hids.1 hlisted
  obtain rfl : e = entry := by simpa [loaded, Index.ofPacked] using he
  exact absurd hid (by decide)

end Mixed

end Snap
end RoadRouting
