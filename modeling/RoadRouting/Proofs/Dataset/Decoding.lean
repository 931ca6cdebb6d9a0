import RoadRouting.Proofs.Dataset.Tables
import RoadRouting.Proofs.Lists

/-!
# Which files can be decoded

A reader needs certain columns: each has a name, the types that it may have, and a rule for its cells.
A table is flawed when a column is missing, or has another type although there are rows, or has a cell
that breaks its rule. The readers, which look at one batch after the other, fail exactly on flawed tables
(`exists_readTable_iff`), so a partition cannot be read exactly when one of its files is no table or a
flawed one (`Catalog.read_error_iff`).
-/

namespace RoadRouting.Dataset
set_option autoImplicit false
open Store (Disk Document)

variable {β γ : Type}

/-- What a reader needs of a column: its name, the types that it may have, and the cells. -/
structure Need where
  name : String
  types : List ColumnType
  admits : (type : ColumnType) → Option type.Value → Bool

/-- Every cell needs a value. -/
def filled (type : ColumnType) (cell : Option type.Value) : Bool := cell.isSome

/-- Any cell may be empty. -/
def anyCell (type : ColumnType) (_ : Option type.Value) : Bool := true

/-- Every cell needs a length. -/
def lengthCell : (type : ColumnType) → Option type.Value → Bool
  | .float64, some x => isLength x
  | _, _ => false

/-- What a table of junctions needs. -/
def junctionNeeds : List Need :=
  [⟨"id", [.int64], filled⟩, ⟨"lat", [.float64], filled⟩, ⟨"lon", [.float64], filled⟩]

/-- What a table of roads needs. -/
def roadNeeds : List Need :=
  [⟨"source", [.int64], filled⟩, ⟨"target", [.int64], filled⟩, ⟨"length_m", [.float64], lengthCell⟩,
    ⟨"classification", [.utf8, .largeUtf8], filled⟩, ⟨"posted_limit", [.utf8, .largeUtf8], anyCell⟩,
    ⟨"one_way", [.bool], anyCell⟩]

/-- Why a table cannot be read: a column is missing, or mistyped, or a cell is not admitted, because it
is empty where a value is needed or its number is no length. Without rows no type is looked at. -/
inductive Table.Flawed (needs : List Need) (t : Table) : Prop
  | missing {need : Need} : need ∈ needs → (∀ c ∈ t.columns, c.name ≠ need.name) → Flawed needs t
  | mistyped {need : Need} {c : Column} : need ∈ needs → column t.columns need.name = .ok c →
      0 < t.rows → c.type ∉ need.types → Flawed needs t
  | cell {need : Need} {c : Column} {cell : Option c.type.Value} : need ∈ needs →
      column t.columns need.name = .ok c → cell ∈ c.cells → need.admits c.type cell = false →
      Flawed needs t

/-- A file that cannot be decoded is no table, or a flawed one. -/
inductive Undecodable (needs : List Need) : Document → Prop
  | noTable {doc : Document} : (∀ t, doc ≠ .table t) → Undecodable needs doc
  | flawed {t : Table} : t.Flawed needs → Undecodable needs (.table t)

/-- One of the files of a cell is there and cannot be decoded. -/
def Catalog.Unreadable (c : Catalog) (disk : Disk) (cell : Grid.Cell) : Prop :=
  (∃ doc, disk.read? (c.junctionFile cell) = some doc ∧ Undecodable junctionNeeds doc) ∨
    ∃ doc, disk.read? (c.roadFile cell) = some doc ∧ Undecodable roadNeeds doc

/-- What is needed is there, in one column. -/
def Need.Met (need : Need) (columns : List Column) : Prop :=
  ∃ c, column columns need.name = .ok c ∧ c.type ∈ need.types ∧ ∀ x ∈ c.cells, need.admits c.type x

/-! ## One column -/

section Columns
variable {columns : List Column} {name : String}

/-- A column is full when no cell is empty. -/
theorem exists_full_iff (name : String) {cells : List (Option β)} :
    (∃ values, full name cells = .ok values) ↔ ∀ x ∈ cells, x.isSome := by
  have hvalues : (∃ values, cells.mapM id = some values) ↔ ∀ x ∈ cells, x.isSome := by
    induction cells with
    | nil => simp
    | cons x rest ih =>
      rw [List.mapM_cons, List.forall_mem_cons, ← ih]
      cases x with
      | none => simp
      | some v => simp [Option.bind_eq_some_iff]
  rw [← hvalues]
  unfold full
  cases cells.mapM id <;> simp

/-- The cells of a full column hold its values. -/
theorem eq_of_full {cells : List (Option β)} {values : List β} (h : full name cells = .ok values) :
    cells = values.map some := by
  have hcells : cells.mapM id = some values := by
    unfold full at h
    cases hm : cells.mapM id with
    | none => simp [hm] at h
    | some vs => simpa [hm] using h
  clear h
  induction cells generalizing values with
  | nil =>
    obtain rfl : [] = values := by simpa using hcells
    rfl
  | cons y rest ih =>
    rw [List.mapM_cons] at hcells
    simp only [id_eq, Option.bind_eq_bind, Option.bind_eq_some_iff, Option.pure_def,
      Option.some.injEq] at hcells
    obtain ⟨v, rfl, vs, hvs, rfl⟩ := hcells
    rw [ih hvs, List.map_cons]

theorem mem_of_full {cells : List (Option β)} {values : List β} (h : full name cells = .ok values)
    {x : β} : x ∈ values ↔ some x ∈ cells := by
  simp [eq_of_full h]

theorem badLength?_eq_none_iff {lengths : List Float} :
    badLength? lengths = none ↔ ∀ x ∈ lengths, isLength x := by
  refine ⟨fun h x hx => ?_, badLength?_eq_none⟩
  unfold badLength? at h
  rw [Option.map_eq_none_iff, List.find?_eq_none] at h
  obtain ⟨i, hi⟩ := List.mem_iff_getElem?.1 hx
  simpa using h (x, i) (List.mem_zipIdx_iff_getElem?.2 hi)

theorem wholes_iff : (∃ ids, wholes columns name = .ok ids) ↔
    Need.Met ⟨name, [.int64], filled⟩ columns := by
  unfold wholes Need.Met
  cases column columns name with
  | error misfit => simp [bind, Except.bind]
  | ok c =>
    obtain ⟨own, type, cells⟩ := c
    cases type with
    | int64 => simp [bind, Except.bind, exists_full_iff, filled]
    | _ => simp [bind, Except.bind]

theorem floats_iff : (∃ xs, floats columns name = .ok xs) ↔
    Need.Met ⟨name, [.float64], filled⟩ columns := by
  unfold floats Need.Met
  cases column columns name with
  | error misfit => simp [bind, Except.bind]
  | ok c =>
    obtain ⟨own, type, cells⟩ := c
    cases type with
    | float64 => simp [bind, Except.bind, exists_full_iff, filled]
    | _ => simp [bind, Except.bind]

/-- Lengths are floats of which none is bad. -/
theorem lengths_iff : (∃ xs, floats columns name = .ok xs ∧ badLength? xs = none) ↔
    Need.Met ⟨name, [.float64], lengthCell⟩ columns := by
  unfold floats Need.Met
  cases column columns name with
  | error misfit => simp [bind, Except.bind]
  | ok c =>
    obtain ⟨own, type, cells⟩ := c
    cases type with
    | float64 =>
      simp only [bind, Except.bind, Except.ok.injEq, exists_eq_left', List.mem_singleton, true_and]
      constructor
      · rintro ⟨xs, hxs, hbad⟩ cell hcell
        obtain ⟨x, rfl⟩ := Option.isSome_iff_exists.1 ((exists_full_iff name).1 ⟨xs, hxs⟩ cell hcell)
        exact badLength?_eq_none_iff.1 hbad x ((mem_of_full hxs).2 hcell)
      · intro h
        have hfull : ∀ cell ∈ cells, cell.isSome := by
          rintro (_ | x) hcell
          · cases h none hcell
          · rfl
        obtain ⟨xs, hxs⟩ := (exists_full_iff name).2 hfull
        refine ⟨xs, hxs, badLength?_eq_none_iff.2 ?_⟩
        intro x hx
        exact h (some x) ((mem_of_full hxs).1 hx)
    | _ => simp [bind, Except.bind]

theorem optionalTexts_iff : (∃ xs, optionalTexts columns name = .ok xs) ↔
    Need.Met ⟨name, [.utf8, .largeUtf8], anyCell⟩ columns := by
  unfold optionalTexts Need.Met
  cases column columns name with
  | error misfit => simp [bind, Except.bind]
  | ok c =>
    obtain ⟨own, type, cells⟩ := c
    cases type <;> simp [bind, Except.bind, anyCell]

theorem texts_iff : (∃ xs, texts columns name = .ok xs) ↔
    Need.Met ⟨name, [.utf8, .largeUtf8], filled⟩ columns := by
  unfold texts optionalTexts Need.Met
  cases column columns name with
  | error misfit => simp [bind, Except.bind]
  | ok c =>
    obtain ⟨own, type, cells⟩ := c
    -- Once no cell is empty, looking for empty ones among the values finds none.
    have htexts (texts : List (Option String)) :
        (∃ xs, (if texts.any (·.isNone) then .error ⟨name, .empty⟩ else full name texts) = .ok xs) ↔
          ∀ x ∈ texts, x.isSome := by
      rw [← exists_full_iff name]
      split
      · rename_i hempty
        obtain ⟨x, hx, hnone⟩ := List.any_eq_true.1 hempty
        refine iff_of_false nofun fun hfull => ?_
        have hsome := (exists_full_iff name).1 hfull x hx
        rw [Option.isNone_iff_eq_none.1 hnone] at hsome
        cases hsome
      · exact Iff.rfl
    cases type with
    | utf8 => simpa [bind, Except.bind, Column.hasEmpty, filled] using htexts cells
    | largeUtf8 => simpa [bind, Except.bind, Column.hasEmpty, filled] using htexts cells
    | _ =>
      refine iff_of_false ?_ (by simp)
      rintro ⟨xs, h⟩
      simp only [bind, Except.bind] at h
      split at h <;> cases h

theorem flags_iff : (∃ xs, flags columns name = .ok xs) ↔
    Need.Met ⟨name, [.bool], anyCell⟩ columns := by
  unfold flags Need.Met
  cases column columns name with
  | error misfit => simp [bind, Except.bind]
  | ok c =>
    obtain ⟨own, type, cells⟩ := c
    cases type <;> simp [bind, Except.bind, anyCell]

end Columns

/-! ## One batch -/

/-- A batch gives its junctions when all that is needed is there. -/
theorem exists_junctionsOfBatch_iff {columns : List Column} :
    (∃ js, junctionsOfBatch columns = .ok js) ↔ ∀ need ∈ junctionNeeds, need.Met columns := by
  unfold junctionsOfBatch
  simp only [bind_eq_ok, junctionNeeds, List.forall_mem_cons, ← wholes_iff, ← floats_iff]
  constructor
  · rintro ⟨js, ids, hids, lats, hlats, lons, hlons, -⟩
    exact ⟨⟨ids, hids⟩, ⟨lats, hlats⟩, ⟨lons, hlons⟩, nofun⟩
  · rintro ⟨⟨ids, hids⟩, ⟨lats, hlats⟩, ⟨lons, hlons⟩, -⟩
    exact ⟨_, ids, hids, lats, hlats, lons, hlons, rfl⟩

/-- So it is with roads. -/
theorem exists_roadsOfBatch_iff {columns : List Column} :
    (∃ rs, roadsOfBatch columns = .ok rs) ↔ ∀ need ∈ roadNeeds, need.Met columns := by
  unfold roadsOfBatch
  simp only [bind_eq_ok, roadNeeds, List.forall_mem_cons, ← wholes_iff, ← lengths_iff, ← texts_iff,
    ← optionalTexts_iff, ← flags_iff]
  constructor
  · rintro ⟨rs, sources, hsources, targets, htargets, lengths, hlengths, classes, hclasses, limits,
      hlimits, oneWays, honeWays, h⟩
    have hbad : badLength? lengths = none := by
      split at h
      · cases h
      · assumption
    exact ⟨⟨sources, hsources⟩, ⟨targets, htargets⟩, ⟨lengths, hlengths, hbad⟩, ⟨classes, hclasses⟩,
      ⟨limits, hlimits⟩, ⟨oneWays, honeWays⟩, nofun⟩
  · rintro ⟨⟨sources, hsources⟩, ⟨targets, htargets⟩, ⟨lengths, hlengths, hbad⟩, ⟨classes, hclasses⟩,
      ⟨limits, hlimits⟩, ⟨oneWays, honeWays⟩, -⟩
    exact ⟨_, sources, hsources, targets, htargets, lengths, hlengths, classes, hclasses, limits,
      hlimits, oneWays, honeWays, by rw [hbad]; rfl⟩

/-! ## All batches -/

section Tables
variable {columns : List Column} {need : Need} {size : Nat}

theorem column_eq_ok {name : String} {c : Column} :
    column columns name = .ok c ↔ columns.find? (fun c => c.name = name) = some c := by
  unfold column
  cases columns.find? fun c => c.name = name <;> simp

/-- What is needed is there when it is there in the first rows and in the others. -/
theorem met_split (columns : List Column) (n : Nat) : need.Met columns ↔
    need.Met (columns.map (.take n)) ∧ need.Met (columns.map (.drop n)) := by
  have hcolumn {f : Column → Column} (hf : ∀ c, (f c).name = c.name) :
      (columns.map f).find? (fun c => c.name = need.name) =
        (columns.find? fun c => c.name = need.name).map f := by
    rw [List.find?_map]
    simp only [Function.comp_def, hf]
  unfold Need.Met
  simp only [column_eq_ok, hcolumn (f := .take n) fun _ => rfl, hcolumn (f := .drop n) fun _ => rfl]
  cases columns.find? fun c => c.name = need.name with
  | none => simp
  | some c =>
    have hcells : (∀ x ∈ c.cells, need.admits c.type x) ↔
        (∀ x ∈ c.cells.take n, need.admits c.type x) ∧ ∀ x ∈ c.cells.drop n, need.admits c.type x := by
      rw [← List.forall_mem_append, List.take_append_drop]
    simp only [Option.map_some, Option.some.injEq, exists_eq_left', hcells, Column.take, Column.drop]
    tauto

/-- What is needed is there in each batch when it is there in the table, or there is no batch. -/
theorem met_batchesOf (hsize : 0 < size) {rows : Nat} (heven : ∀ c ∈ columns, c.size = rows) :
    (∀ batch ∈ batchesOf size rows columns, need.Met batch) ↔ rows = 0 ∨ need.Met columns := by
  induction hn : rows using Nat.strongRecOn generalizing rows columns with
  | _ n ih =>
    subst hn
    rw [batchesOf]
    by_cases h0 : rows = 0
    · simp [h0]
    · rw [if_neg (by omega), List.forall_mem_cons]
      by_cases hlast : rows ≤ size
      · have htake : columns.map (.take size) = columns := by
          refine (List.map_congr_left fun c hc => ?_).trans (List.map_id _)
          have hlength : c.cells.length ≤ size := by
            have := heven c hc
            simp only [Column.size] at this
            omega
          rw [Column.take, List.take_of_length_le hlength]
          rfl
        have hrest : batchesOf size (rows - size) (columns.map (.drop size)) = [] := by
          rw [batchesOf, if_pos (by omega)]
        rw [htake, hrest]
        simp [h0]
      · have hdrop : ∀ c ∈ columns.map (Column.drop size), c.size = rows - size := by
          intro c hc
          obtain ⟨c', hc', rfl⟩ := List.mem_map.1 hc
          rw [← heven c' hc']
          exact List.length_drop
        rw [ih (rows - size) (by omega) hdrop rfl, met_split columns size]
        have hleft : rows - size ≠ 0 := by omega
        simp [h0, hleft]

/-- The look at the columns passes when all are there. -/
theorem forIn_columns_eq_ok (columns : List Column) (names : List String) :
    (forIn (m := Except Misfit) names PUnit.unit fun name _ => do
      discard (column columns name)
      return ForInStep.yield PUnit.unit) = .ok PUnit.unit ↔
    ∀ name ∈ names, ∃ c, column columns name = .ok c := by
  induction names with
  | nil => simp [pure, Except.pure]
  | cons name rest ih =>
    rw [List.forIn_cons, List.forall_mem_cons, ← ih]
    cases column columns name with
    | error misfit => simp [discard, Functor.discard, Functor.mapConst, Except.map, bind, Except.bind]
    | ok c => simp [discard, Functor.discard, Functor.mapConst, Except.map, bind, Except.bind, pure, Except.pure]

/-- A sound table has all the columns, and what is needed is there unless there are no rows. -/
theorem Table.not_flawed_iff {needs : List Need} {t : Table} : ¬ t.Flawed needs ↔
    ∀ need ∈ needs, (∃ c, column t.columns need.name = .ok c) ∧ (t.rows = 0 ∨ need.Met t.columns) := by
  constructor
  · intro hsound need hneed
    cases hc : column t.columns need.name with
    | error misfit =>
      refine absurd (.missing hneed fun c hmem hname => ?_) hsound
      have hnone : t.columns.find? (fun c => c.name = need.name) = none := by
        unfold column at hc
        split at hc
        · cases hc
        · assumption
      simpa [hname] using List.find?_eq_none.1 hnone c hmem
    | ok c =>
      refine ⟨⟨c, rfl⟩, ?_⟩
      by_cases hrows : t.rows = 0
      · exact .inl hrows
      · refine .inr ⟨c, hc, ?_, fun cell hcell => ?_⟩
        · by_contra htype
          exact hsound (.mistyped hneed hc (by omega) htype)
        · by_contra hnot
          exact hsound (.cell hneed hc hcell (by simpa using hnot))
  · intro hall hflawed
    have hfits {need : Need} {c : Column} (hneed : need ∈ needs) (hrows : 0 < t.rows)
        (hc : column t.columns need.name = .ok c) :
        c.type ∈ need.types ∧ ∀ cell ∈ c.cells, need.admits c.type cell := by
      obtain ⟨c', hc', hfits⟩ := (hall need hneed).2.resolve_left (by omega)
      rw [hc] at hc'
      cases hc'
      exact hfits
    cases hflawed with
    | missing hneed hnone =>
      obtain ⟨c, hc⟩ := (hall _ hneed).1
      have hfound := column_eq_ok.1 hc
      exact hnone c (List.mem_of_find?_eq_some hfound) (by simpa using List.find?_some hfound)
    | mistyped hneed hc hrows htype => exact htype (hfits hneed hrows hc).1
    | @cell need c cell hneed hc hcell hnot =>
      have hrows : 0 < t.rows := by
        rw [← t.even c (List.mem_of_find?_eq_some (column_eq_ok.1 hc))]
        exact List.length_pos_of_mem hcell
      rw [(hfits hneed hrows hc).2 cell hcell] at hnot
      cases hnot

/-- A reader that gets rows from a batch when all that is needed is there gets rows from a table unless
it is flawed. -/
theorem exists_readTable_iff {needs : List Need} {ofBatch : List Column → Except Misfit (List β)}
    (hbatch : ∀ batch, (∃ rows, ofBatch batch = .ok rows) ↔ ∀ need ∈ needs, need.Met batch)
    (hsize : 0 < size) (t : Table) :
    (∃ rows, readTable (needs.map (·.name)) ofBatch size t = .ok rows) ↔ ¬ t.Flawed needs := by
  have hnames := forIn_columns_eq_ok t.columns (needs.map (·.name))
  rw [List.forall_mem_map] at hnames
  have hread : (∃ rows, readTable (needs.map (·.name)) ofBatch size t = .ok rows) ↔
      (∀ need ∈ needs, ∃ c, column t.columns need.name = .ok c) ∧
        ∀ batch ∈ t.batches size, ∃ rows, ofBatch batch = .ok rows := by
    rw [← hnames, ← exists_mapM_iff]
    unfold readTable
    simp only [bind_eq_ok]
    constructor
    · rintro ⟨rows, _, hthere, parts, hparts, -⟩
      exact ⟨hthere, parts, hparts⟩
    · rintro ⟨hthere, parts, hparts⟩
      exact ⟨_, _, hthere, parts, hparts, rfl⟩
  rw [hread, Table.not_flawed_iff, forall₂_and]
  refine and_congr_right fun _ => ?_
  simp only [hbatch]
  rw [forall₂_comm]
  exact forall₂_congr fun need _ => met_batchesOf hsize t.even

end Tables

/-- A table of junctions is read unless it is flawed. -/
theorem exists_readJunctions_iff {size : Nat} (hsize : 0 < size) (t : Table) :
    (∃ js, readJunctions size t = .ok js) ↔ ¬ t.Flawed junctionNeeds :=
  exists_readTable_iff (fun _ => exists_junctionsOfBatch_iff) hsize t

/-- So is a table of roads. -/
theorem exists_readRoads_iff {size : Nat} (hsize : 0 < size) (t : Table) :
    (∃ rs, readRoads size t = .ok rs) ↔ ¬ t.Flawed roadNeeds :=
  exists_readTable_iff (fun _ => exists_roadsOfBatch_iff) hsize t

/-! ## Lengths -/

/-- What holds of the rows of each batch holds of the rows of a table. -/
theorem forall_of_readTable {names : List String} {ofBatch : List Column → Except Misfit (List β)}
    {P : β → Prop} (hbatch : ∀ columns rows, ofBatch columns = .ok rows → ∀ x ∈ rows, P x) {size : Nat}
    {t : Table} {rows : List β} (h : readTable names ofBatch size t = .ok rows) : ∀ x ∈ rows, P x := by
  unfold readTable at h
  simp only [bind_eq_ok] at h
  obtain ⟨-, -, parts, hparts, h⟩ := h
  cases h
  intro x hx
  obtain ⟨part, hpart, hx⟩ := List.mem_flatten.1 hx
  obtain ⟨batch, -, hread⟩ := exists_of_mem_left (mapM_eq_ok hparts).flip hpart
  exact hbatch batch part hread x hx

/-- A batch with a number that is no length has no roads. -/
theorem isLength_of_roadsOfBatch {columns : List Column} {rs : List (Road Float)}
    (h : roadsOfBatch columns = .ok rs) : ∀ r ∈ rs, isLength r.length := by
  unfold roadsOfBatch at h
  simp only [bind_eq_ok] at h
  obtain ⟨sources, -, targets, -, lengths, -, classes, -, limits, -, oneWays, -, h⟩ := h
  split at h
  · cases h
  · rename_i hbad
    cases h
    intro r hr
    obtain ⟨row, hrow, rfl⟩ := List.mem_map.1 hr
    exact badLength?_eq_none_iff.1 hbad _ (List.of_mem_zip (List.of_mem_zip hrow).2).1

/-! ## Partitions -/

/-- What a file holds can be read unless the file cannot be decoded. -/
theorem exists_rowsIfThere_iff {needs : List Need} {read : Table → Except Misfit (List β)}
    (hread : ∀ t, (∃ rows, read t = .ok rows) ↔ ¬ t.Flawed needs) (disk : Disk) (file : Store.Path) :
    (∃ rows, rowsIfThere disk read file = .ok rows) ↔
      ¬ ∃ doc, disk.read? file = some doc ∧ Undecodable needs doc := by
  unfold rowsIfThere rowsIn Store.Files.isFile Store.Files.read?
  rcases hitem : disk.item? file with _ | _ | doc
  · simp
  · simp
  · simp only [Option.isSome_some, if_true, Option.some.injEq, exists_eq_left']
    cases doc with
    | table t =>
      have hundecodable : Undecodable needs (.table t) ↔ t.Flawed needs := by
        refine ⟨fun h => ?_, .flawed⟩
        cases h with
        | noTable hno => exact absurd rfl (hno t)
        | flawed hflawed => exact hflawed
      rw [hundecodable, ← hread]
      cases hr : read t <;> simp [hr]
    | _ => exact iff_of_false (by simp) (not_not.2 (.noTable fun _ => nofun))

/-- A partition cannot be read exactly when one of its files cannot be decoded. -/
theorem Catalog.read_error_iff {c : Catalog} {disk : Disk} {cell : Grid.Cell} :
    (∃ f, c.read disk cell = .error f) ↔ c.Unreadable disk cell := by
  have hsize : 0 < batchSize := by decide
  have hjunctions :=
    exists_rowsIfThere_iff (exists_readJunctions_iff hsize) disk (c.junctionFile cell)
  have hroads := exists_rowsIfThere_iff (exists_readRoads_iff hsize) disk (c.roadFile cell)
  unfold Catalog.Unreadable
  rw [← not_iff_not, not_or, ← hjunctions, ← hroads]
  unfold Catalog.read
  cases rowsIfThere disk (readJunctions batchSize) (c.junctionFile cell) with
  | error f => simp [bind, Except.bind]
  | ok js =>
    cases rowsIfThere disk (readRoads batchSize) (c.roadFile cell) with
    | error f => simp [bind, Except.bind]
    | ok rs => simp [bind, Except.bind, pure, Except.pure]

theorem rowsIfThere_eq_ok {read : Table → Except Misfit (List β)} {disk : Disk} {file : Store.Path}
    {rows : List β} (h : rowsIfThere disk read file = .ok rows) :
    rows = [] ∨ ∃ t, read t = .ok rows := by
  unfold rowsIfThere rowsIn at h
  split at h
  · split at h
    · cases h
    · rename_i t _
      split at h
      · rename_i hread
        cases h
        exact .inr ⟨t, hread⟩
      · cases h
    · cases h
  · cases h
    exact .inl rfl

/-- Every road that is read has a length. -/
theorem Catalog.isLength_of_read {c : Catalog} {disk : Disk} {cell : Grid.Cell}
    {p : Partition Float Point} (h : c.read disk cell = .ok p) : ∀ r ∈ p.roads, isLength r.length := by
  obtain ⟨-, -, hroads⟩ := Catalog.read_eq_ok.1 h
  rcases rowsIfThere_eq_ok hroads with hnone | ⟨t, hread⟩
  · rw [hnone]
    exact fun _ hr => nomatch hr
  · exact forall_of_readTable (fun _ _ hbatch => isLength_of_roadsOfBatch hbatch) hread

end RoadRouting.Dataset
