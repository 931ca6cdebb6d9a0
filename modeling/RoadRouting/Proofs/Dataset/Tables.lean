import RoadRouting.Dataset.Catalog
import Mathlib.Data.List.Basic

/-!
# Rows and tables

A table whose columns list what is known of some rows, in their order, stays one when it is cut into
batches. So a reader that gets the rows of each batch back gets all rows back (`mapM_batchesOf`), and
the tables of junctions and of roads give back what was put into them. The partition of a cell is what
its two tables give (`Catalog.read_eq_ok`).
-/

namespace RoadRouting.Dataset
set_option autoImplicit false

variable {β γ : Type}

/-- A column of a table of rows: its name and type, and its cell for each row. -/
structure Field (β : Type) where
  name : String
  type : ColumnType
  cell : β → Option type.Value

/-- The columns of some rows. -/
def columnsOf (fields : List (Field β)) (rows : List β) : List Column :=
  fields.map fun f => ⟨f.name, f.type, rows.map f.cell⟩

/-! ## Batches -/

section Batches
variable {fields : List (Field β)} {size : Nat} {ofBatch : List Column → Except Misfit (List β)}

theorem take_columnsOf (n : Nat) (rows : List β) :
    (columnsOf fields rows).map (.take n) = columnsOf fields (rows.take n) := by
  simp [columnsOf, Column.take, List.map_take]

theorem drop_columnsOf (n : Nat) (rows : List β) :
    (columnsOf fields rows).map (.drop n) = columnsOf fields (rows.drop n) := by
  simp [columnsOf, Column.drop, List.map_drop]

/-- When each batch gives its rows, all batches give all rows. -/
theorem mapM_batchesOf (hsize : 0 < size) (P : β → Prop)
    (hread : ∀ rows, (∀ x ∈ rows, P x) → ofBatch (columnsOf fields rows) = .ok rows)
    (rows : List β) (hrows : ∀ x ∈ rows, P x) :
    ∃ parts, (batchesOf size rows.length (columnsOf fields rows)).mapM ofBatch = .ok parts ∧
      parts.flatten = rows := by
  induction hn : rows.length using Nat.strongRecOn generalizing rows with
  | _ n ih =>
    rw [batchesOf]
    by_cases h0 : n = 0
    · rw [if_pos (.inl h0)]
      refine ⟨[], rfl, ?_⟩
      rw [h0] at hn
      exact (List.length_eq_zero_iff.1 hn).symm
    · rw [if_neg (by omega)]
      have hlength : (rows.drop size).length = n - size := by rw [List.length_drop, hn]
      obtain ⟨parts, hparts, hflat⟩ := ih (n - size) (by omega) _
        (fun x hx => hrows x (List.mem_of_mem_drop hx)) hlength
      have hfirst := hread (rows.take size) fun x hx => hrows x (List.mem_of_mem_take hx)
      refine ⟨rows.take size :: parts, ?_, ?_⟩
      · rw [take_columnsOf, drop_columnsOf, List.mapM_cons, hfirst, hparts]
        rfl
      · rw [List.flatten_cons, hflat, List.take_append_drop]

end Batches

/-- A column without empty cells is full. -/
theorem full_map (name : String) (value : β → γ) (rows : List β) :
    full name (rows.map fun x => some (value x)) = .ok (rows.map value) := by
  have hvalues : (rows.map fun x => some (value x)).mapM id = some (rows.map value) := by
    induction rows with
    | nil => rfl
    | cons x rest ih => rw [List.map_cons, List.mapM_cons, ih]; rfl
  unfold full
  rw [hvalues]

/-! ## Junctions -/

/-- What a table says of a junction. -/
def junctionFields : List (Field (Junction Point)) :=
  [⟨"id", .int64, fun j => some j.id⟩, ⟨"lat", .float64, fun j => some j.position.lat⟩,
    ⟨"lon", .float64, fun j => some j.position.lon⟩]

theorem junctionsOfBatch_columnsOf (js : List (Junction Point)) :
    junctionsOfBatch (columnsOf junctionFields js) = .ok js := by
  have hids : wholes (columnsOf junctionFields js) "id" = .ok (js.map (·.id)) := full_map ..
  have hlats : floats (columnsOf junctionFields js) "lat" = .ok (js.map (·.position.lat)) := full_map ..
  have hlons : floats (columnsOf junctionFields js) "lon" = .ok (js.map (·.position.lon)) := full_map ..
  unfold junctionsOfBatch
  rw [hids, hlats, hlons]
  simp [bind, Except.bind, pure, Except.pure, List.zipWith_map, List.zipWith_self]

/-- A table of junctions gives them back. -/
theorem readJunctions_junctionTable {size : Nat} (hsize : 0 < size) (js : List (Junction Point)) :
    readJunctions size (junctionTable js) = .ok js := by
  obtain ⟨parts, hparts, hflat⟩ := mapM_batchesOf hsize (fun _ => True)
    (fun rows _ => junctionsOfBatch_columnsOf rows) js fun _ _ => trivial
  have hbatches : (junctionTable js).batches size =
      batchesOf size js.length (columnsOf junctionFields js) := rfl
  unfold readJunctions readTable
  rw [hbatches, hparts]
  exact congrArg Except.ok hflat

/-! ## Roads -/

/-- What a table says of a road. -/
def roadFields : List (Field (Road Float)) :=
  [⟨"source", .int64, fun r => some r.source⟩, ⟨"target", .int64, fun r => some r.target⟩,
    ⟨"length_m", .float64, fun r => some r.length⟩, ⟨"classification", .utf8, fun r => some r.className⟩,
    ⟨"posted_limit", .utf8, fun r => r.limit⟩, ⟨"one_way", .bool, fun r => some r.oneWay⟩]

theorem badLength?_eq_none {lengths : List Float} (h : ∀ x ∈ lengths, isLength x) :
    badLength? lengths = none := by
  unfold badLength?
  rw [Option.map_eq_none_iff, List.find?_eq_none]
  intro p hp
  have hmem := h p.1 (List.fst_mem_of_mem_zipIdx hp)
  simp [hmem]

theorem roadsOfBatch_columnsOf {rs : List (Road Float)} (h : ∀ r ∈ rs, isLength r.length) :
    roadsOfBatch (columnsOf roadFields rs) = .ok rs := by
  have hsources : wholes (columnsOf roadFields rs) "source" = .ok (rs.map (·.source)) := full_map ..
  have htargets : wholes (columnsOf roadFields rs) "target" = .ok (rs.map (·.target)) := full_map ..
  have hlengths : floats (columnsOf roadFields rs) "length_m" = .ok (rs.map (·.length)) := full_map ..
  have hclasses : texts (columnsOf roadFields rs) "classification" = .ok (rs.map (·.className)) := by
    have hcolumn : column (columnsOf roadFields rs) "classification" =
        .ok ⟨"classification", .utf8, rs.map fun r => some r.className⟩ := rfl
    have hfull : Column.hasEmpty ⟨"classification", .utf8, rs.map fun r => some r.className⟩ = false := by
      simp [Column.hasEmpty]
    unfold texts
    simp only [hcolumn, bind, Except.bind, hfull]
    exact full_map ..
  have hlimits : optionalTexts (columnsOf roadFields rs) "posted_limit" = .ok (rs.map (·.limit)) := rfl
  have hflags : flags (columnsOf roadFields rs) "one_way" = .ok (rs.map (·.oneWay)) := by
    have hcells : (rs.map fun r => some r.oneWay).map (·.getD false) = rs.map (·.oneWay) := by
      rw [List.map_map]
      rfl
    exact congrArg Except.ok hcells
  have hbad : badLength? (rs.map (·.length)) = none := badLength?_eq_none fun x hx => by
    obtain ⟨r, hr, rfl⟩ := List.mem_map.1 hx
    exact h r hr
  unfold roadsOfBatch
  rw [hsources, htargets, hlengths, hclasses, hlimits, hflags]
  simp [bind, Except.bind, pure, Except.pure, hbad, List.zip_map', Function.comp_def]

/-- A table of roads gives them back if their lengths are lengths. -/
theorem readRoads_roadTable {size : Nat} (hsize : 0 < size) {rs : List (Road Float)}
    (h : ∀ r ∈ rs, isLength r.length) : readRoads size (roadTable rs) = .ok rs := by
  have hread : ∀ rows : List (Road Float), (∀ r ∈ rows, isLength r.length) →
      roadsOfBatch (columnsOf roadFields rows) = .ok rows := fun _ hrows => roadsOfBatch_columnsOf hrows
  obtain ⟨parts, hparts, hflat⟩ := mapM_batchesOf hsize _ hread rs h
  have hbatches : (roadTable rs).batches size = batchesOf size rs.length (columnsOf roadFields rs) :=
    rfl
  unfold readRoads readTable
  rw [hbatches, hparts]
  exact congrArg Except.ok hflat

/-! ## Partitions -/

section Partitions
variable {disk : Store.Disk}

theorem rowsIfThere_of_item? {read : Table → Except Misfit (List β)} {file : Store.Path} {t : Table}
    {rows : List β} (hitem : disk.item? file = some (.file (.table t))) (hread : read t = .ok rows) :
    rowsIfThere disk read file = .ok rows := by
  simp [rowsIfThere, rowsIn, Store.Files.isFile, Store.Files.read?, hitem, hread]

theorem Catalog.read_eq_ok {c : Catalog} {cell : Grid.Cell} {p : Partition Float Point} :
    c.read disk cell = .ok p ↔ p.cell = cell ∧
      rowsIfThere disk (readJunctions batchSize) (c.junctionFile cell) = .ok p.junctions ∧
      rowsIfThere disk (readRoads batchSize) (c.roadFile cell) = .ok p.roads := by
  obtain ⟨own, js, rs⟩ := p
  unfold Catalog.read
  cases rowsIfThere disk (readJunctions batchSize) (c.junctionFile cell) with
  | error f => simp [bind, Except.bind]
  | ok js' =>
    cases rowsIfThere disk (readRoads batchSize) (c.roadFile cell) with
    | error f => simp [bind, Except.bind]
    | ok rs' => simp [bind, Except.bind, pure, Except.pure, eq_comm (a := cell)]

end Partitions
end RoadRouting.Dataset
