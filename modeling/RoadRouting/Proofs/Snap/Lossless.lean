import RoadRouting.Proofs.Snap.Agreement
import RoadRouting.Proofs.Snap.Memory

/-!
# Saving an index and taking it back

What is saved is taken back exactly when no node is listed twice and every partition is a cell
(`Index.save_load`). The table of coordinates has one row for each node, while the file of the entries
has them all, so a repeated node makes the counts differ. What is taken back answers as the index that
was saved (`Index.Alike`), whatever either of them was asked before, since a memory never shows.
-/

namespace RoadRouting.Snap
set_option autoImplicit false
open Store (Disk Document Files Path)

namespace Index

/-! ## Indexes that answer alike -/

/-- An index after queries. -/
inductive Asked (ix : Index) : Index → Prop
  | start : Asked ix ix
  | nearest {i : Index} (p : Point) (radius : Float) : Asked ix i → Asked ix (i.nearest p radius).2

/-- Whatever two indexes were asked before, they have the same size and give the same answers. -/
structure Alike (ix ix' : Index) : Prop where
  size : ix'.size = ix.size
  coordinate : ∀ {i i' : Index}, ix.Asked i → ix'.Asked i' → ∀ id, i'.coordinate? id = i.coordinate? id
  nearest : ∀ {i i' : Index}, ix.Asked i → ix'.Asked i' → ∀ p radius,
    (i'.nearest p radius).1 = (i.nearest p radius).1

theorem nearest_coordinates (ix : Index) (p : Point) (radius : Float) :
    (ix.nearest p radius).2.coordinates = ix.coordinates := by
  have h := ix.nearest_called p radius
  generalize ix.nearest p radius = reply at h ⊢
  cases h with
  | refused _ | known _ _ | broken _ _ _ => rfl
  | found _ _ _ =>
    unfold remember
    split <;> rfl

section Asked
variable {ix i : Index}

theorem Asked.coordinate? (h : ix.Asked i) (id : Int64) : i.coordinate? id = ix.coordinate? id := by
  induction h with
  | start => rfl
  | nearest p radius _ ih => rwa [Index.coordinate?, nearest_coordinates]

theorem Asked.agrees (h : ix.Asked i) : ix.Agrees i := by
  induction h with
  | start => exact ⟨rfl, rfl⟩
  | nearest p radius _ ih => exact ih.trans (nearest_agrees _ p radius)

theorem Asked.remembers (h : ix.Asked i) (hr : ix.Remembers) : i.Remembers := by
  induction h with
  | start => exact hr
  | nearest p radius _ ih => exact ih.nearest p radius

end Asked

/-- Indexes of the same entries that have the same coordinates answer alike. -/
theorem Agrees.alike {ix ix' : Index} (h : ix.Agrees ix') (hr : ix.Remembers) (hr' : ix'.Remembers)
    (hcoordinate : ∀ id, ix'.coordinate? id = ix.coordinate? id) : ix.Alike ix' where
  size := congrArg List.length h.entries
  coordinate := by
    intro i i' hi hi' id
    rw [hi.coordinate?, hi'.coordinate?, hcoordinate]
  nearest := by
    intro i i' hi hi' p radius
    calc (i'.nearest p radius).1
      _ = ix'.snap p radius := by rw [(hi'.remembers hr').nearest_eq, hi'.agrees.snap]
      _ = ix.snap p radius := h.snap
      _ = (i.nearest p radius).1 := by rw [(hi.remembers hr).nearest_eq, hi.agrees.snap]

theorem Alike.refl {ix : Index} (hr : ix.Remembers) : ix.Alike ix :=
  Agrees.alike ⟨rfl, rfl⟩ hr hr fun _ => rfl

/-! ## The table of coordinates -/

section Table
variable (ix : Index)

theorem coordinateTable_perm : ix.coordinateTable.Perm ix.coordinates.toList :=
  List.mergeSort_perm _ _

theorem length_coordinateTable : ix.coordinateTable.length = ix.coordinates.size :=
  ix.coordinateTable_perm.length_eq.trans Std.HashMap.length_toList

theorem mem_coordinateTable {id : Int64} {p : Point} :
    (id, p) ∈ ix.coordinateTable ↔ ix.coordinates[id]? = some p :=
  ix.coordinateTable_perm.mem_iff.trans Std.HashMap.mem_toList_iff_getElem?_eq_some

theorem nodup_coordinateTable : (ix.coordinateTable.map (·.1)).Nodup := by
  rw [(ix.coordinateTable_perm.map _).nodup_iff, Std.HashMap.map_fst_toList_eq_keys]
  exact Std.HashMap.nodup_keys

/-- The table records what it was made from. -/
theorem recorded_coordinateTable (id : Int64) :
    (recorded ix.coordinateTable)[id]? = ix.coordinates[id]? := by
  cases hid : ix.coordinates[id]? with
  | some p =>
    have hmem := ix.mem_coordinateTable.2 hid
    exact getElem?_foldl_insert_of_mem ix.nodup_coordinateTable hmem
  | none =>
    cases hrecorded : (recorded ix.coordinateTable)[id]? with
    | none => rfl
    | some q =>
      obtain ⟨⟨id', p⟩, hmem, rfl⟩ := List.mem_map.1 (isSome_recorded.1 (by rw [hrecorded]; rfl))
      rw [ix.mem_coordinateTable.1 hmem] at hid
      cases hid

end Table

/-! ## What is taken back -/

section Saved
variable {entries : List Entry} {header : Header} {options : Options} {disk disk' : Disk} {dir : Path}

/-- No node is listed twice, and every partition is a cell. -/
structure Archivable (entries : List Entry) : Prop where
  nodup : (entries.map (·.id)).Nodup
  partition : ∀ e ∈ entries, ∃ cell, Grid.Cell.ofRaw e.partition = .ok cell

/-- A new index has as many coordinates as nodes. -/
theorem size_coordinates_ofPacked : (ofPacked entries header options).coordinates.size =
    (entries.map (·.id)).toFinset.card :=
  size_eq_card fun _ => isSome_foldl_insert

/-- A list has as many members as items just when it has no repetitions. -/
theorem card_eq_length_iff {ids : List Int64} : ids.toFinset.card = ids.length ↔ ids.Nodup :=
  Multiset.toFinset_card_eq_card_iff_nodup

/-- What a new index leaves in its files passes the checks just when its entries can be archived. -/
theorem accepted_iff (hnumbers : ∀ e ∈ entries,
      e.position.lat.isNaN = false ∧ e.position.lon.isNaN = false) :
    Accepted entries (ofPacked entries header options).coordinateTable ↔ Archivable entries := by
  constructor
  · intro h
    refine ⟨?_, h.partition⟩
    rw [← card_eq_length_iff, List.length_map, ← h.count, length_coordinateTable,
      size_coordinates_ofPacked]
  · intro h
    refine ⟨?_, ?_, h.partition⟩
    · rw [length_coordinateTable, size_coordinates_ofPacked, card_eq_length_iff.2 h.nodup,
        List.length_map]
    · intro e he
      obtain ⟨hlat, hlon⟩ := hnumbers e he
      refine ⟨e.position, ?_, Point.beq_self hlat hlon⟩
      rw [recorded_coordinateTable]
      exact getElem?_foldl_insert_of_mem h.nodup he

/-- What is taken back after a new index was saved answers as that index. -/
theorem alike_of_saved {ix ix' : Index} (hr : ix.Remembers) {now : Disk}
    (hentries : now.read? (dir.child entriesFile) = some (.entries ix.header ix.entries))
    (htable : now.read? (dir.child coordinatesFile) =
      some (.coordinates ix.header ix.coordinateTable))
    (hl : load now dir ix.header ix.options = .ok (some ix')) : ix.Alike ix' := by
  obtain ⟨table, hentries', htable', -, hix'⟩ := load_eq_some_iff.1 hl
  rw [hentries, Option.some.injEq, Document.entries.injEq] at hentries'
  rw [htable, Option.some.injEq, Document.coordinates.injEq] at htable'
  have hagrees : ix.Agrees ix' := ⟨hentries'.2.symm, by rw [hix']; rfl⟩
  have hr' : ix'.Remembers := Remembers.of_memo_empty (by rw [hix']; rfl)
  apply hagrees.alike hr hr'
  intro id
  rw [hix', ← htable'.2]
  exact ix.recorded_coordinateTable id

/-- Entries are made an index of exactly when they can be packed. -/
theorem ofEntries_eq_ok_iff {ix : Index} : ofEntries entries header options = .ok ix ↔
    isPackable entries = true ∧ ofPacked entries header options = ix := by
  unfold ofEntries
  split
  · rename_i h
    rw [Except.ok.injEq, and_iff_right h]
  · rename_i h
    exact ⟨nofun, fun hp => absurd hp.1 h⟩

theorem ofEntries_of_isPackable (h : isPackable entries = true) :
    ofEntries entries header options = .ok (ofPacked entries header options) :=
  ofEntries_eq_ok_iff.2 ⟨h, rfl⟩

/-- Entries with numbers for coordinates make an index. After it was saved, it is taken back just when no
node is listed twice and every partition is a cell. Otherwise one of the files is at fault. What is taken
back has the header of the index that was saved and answers as it does. -/
theorem save_load
    (hnumbers : ∀ e ∈ entries, e.position.lat.isNaN = false ∧ e.position.lon.isNaN = false) :
    ∃ ix, ofEntries entries header options = .ok ix ∧
      ∀ (disk disk' : Disk) (dir : Path), ix.save disk dir = (.ok (), disk') →
        ((∃ i, load disk' dir header options = .ok (some i)) ↔ Archivable entries) ∧
        (¬ Archivable entries → ∃ file defect,
          load disk' dir header options = .error (.defective file defect)) ∧
        ∀ i, load disk' dir header options = .ok (some i) → i.header = header ∧ ix.Alike i := by
  have hpackable : isPackable entries = true :=
    isPackable_of_numeric fun e he => Point.isNumeric_iff.2 (hnumbers e he)
  refine ⟨_, ofEntries_of_isPackable hpackable, fun disk disk' dir hs => ?_⟩
  obtain ⟨hentries, htable⟩ := reads_of_save hs
  have hload := load_of_reads options hentries htable
  rw [show (ofPacked entries header options).entries = entries from rfl, accepted_iff hnumbers] at hload
  refine ⟨?_, ?_, ?_⟩
  · constructor
    · rintro ⟨i, hi⟩
      rcases hload with ⟨h, -⟩ | ⟨-, file, defect, herror⟩
      · exact h
      · rw [show load disk' dir header options = _ from herror] at hi
        cases hi
    · intro h
      rcases hload with ⟨-, hok⟩ | ⟨hnot, -⟩
      · exact ⟨_, hok⟩
      · exact absurd h hnot
  · intro hnot
    rcases hload with ⟨h, -⟩ | ⟨-, herror⟩
    · exact absurd h hnot
    · exact herror
  · intro i hi
    obtain ⟨-, -, -, hheader, -⟩ := load_eq_some hi
    exact ⟨hheader, alike_of_saved (Remembers.of_memo_empty rfl) hentries htable hi⟩

end Saved

/-! ## An index of two nodes -/

namespace Twin

def entries : List Entry :=
  [⟨1, ⟨0.5, 0.5⟩, 0x8001fffffffffff⟩, ⟨2, ⟨0.25, 0.25⟩, 0x8001fffffffffff⟩]

def header : Header := ⟨1, 0, 2, 0, 1, 0⟩

def options : Options := ⟨10, 10, 6⟩

theorem archivable : Archivable entries where
  nodup := by decide
  partition := by
    intro e he
    have hpartition : e.partition = 0x8001fffffffffff := by
      simp only [entries, List.mem_cons, List.not_mem_nil, or_false] at he
      rcases he with rfl | rfl <;> rfl
    rw [hpartition]
    exact ⟨⟨0x8001fffffffffff, by decide +kernel⟩, rfl⟩

theorem save_load_entries : ∃ ix disk',
    (∀ e ∈ entries, e.position.lat.isNaN = false ∧ e.position.lon.isNaN = false) ∧
    ofEntries entries header options = .ok ix ∧ ix.save .empty ⟨[]⟩ = (.ok (), disk') ∧
    Archivable entries ∧
    ((∃ i, load disk' ⟨[]⟩ header options = .ok (some i)) ↔ Archivable entries) ∧
    (¬ Archivable entries → ∃ file defect,
      load disk' ⟨[]⟩ header options = .error (.defective file defect)) ∧
    ∀ i, load disk' ⟨[]⟩ header options = .ok (some i) → i.header = header ∧ ix.Alike i := by
  have hnumbers : ∀ e ∈ entries, e.position.lat.isNaN = false ∧ e.position.lon.isNaN = false := by
    decide +kernel
  have hfree (name : String) : (Files.empty : Disk).hasDirectory (Path.location ⟨[]⟩ ++ [name]) = false := by
    simp [Files.hasDirectory, Files.at?, Files.empty]
  obtain ⟨ix, hix, hsave⟩ : ∃ ix, ofEntries entries header options = .ok ix ∧ _ := save_load hnumbers
  obtain ⟨disk', hs⟩ : ∃ disk', ix.save .empty ⟨[]⟩ = (.ok (), disk') :=
    ⟨_, save_ok (Files.isDirectory_root _) (hfree _) (hfree _)⟩
  exact ⟨ix, disk', hnumbers, hix, hs, archivable, hsave _ _ _ hs⟩

end Twin

end Index
end RoadRouting.Snap
