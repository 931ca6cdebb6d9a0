import RoadRouting.Proofs.Dataset.Decoding

/-!
# Tables as wholes

A table is read in batches, and its columns one by one. What is read says nothing of this: a table is
accepted if each column that is needed is there and, where there are rows, has one of its types and admitted
cells (`Table.Fits`), and it gives the row at each place, in order (`roadAt?`, `junctionAt?`). So the size of
the batches does not matter, and other columns do not (`ReadsRows`).
-/

namespace RoadRouting.Dataset
set_option autoImplicit false

variable {β γ : Type}

/-- Each column that is needed is there and, if there are rows, has one of the types and admitted cells. -/
def Table.Fits (needs : List Need) (t : Table) : Prop :=
  ∀ need ∈ needs, ∃ c, column t.columns need.name = .ok c ∧
    (0 < t.rows → c.type ∈ need.types ∧ ∀ x ∈ c.cells, need.admits c.type x)

/-- A cell with its type. -/
abbrev TypedCell : Type := (type : ColumnType) × Option type.Value

namespace TypedCell

def whole? : TypedCell → Option Int64
  | ⟨.int64, cell⟩ => cell
  | _ => none

def float? : TypedCell → Option Float
  | ⟨.float64, cell⟩ => cell
  | _ => none

/-- The text of a cell, or that there is none. -/
def text? : TypedCell → Option (Option String)
  | ⟨.utf8, cell⟩ => some cell
  | ⟨.largeUtf8, cell⟩ => some cell
  | _ => none

/-- The flag of a cell, or that there is none. -/
def flag? : TypedCell → Option (Option Bool)
  | ⟨.bool, cell⟩ => some cell
  | _ => none

end TypedCell

/-- The cell of a row in the first column with a name. -/
def cellAt? (columns : List Column) (name : String) (i : Nat) : Option TypedCell :=
  match column columns name with
  | .ok c => c.cells[i]?.map fun cell => ⟨c.type, cell⟩
  | .error _ => none

/-- The junction in a row. -/
def junctionAt? (columns : List Column) (i : Nat) : Option (Junction Point) := do
  let id ← (cellAt? columns "id" i).bind (·.whole?)
  let lat ← (cellAt? columns "lat" i).bind (·.float?)
  let lon ← (cellAt? columns "lon" i).bind (·.float?)
  return ⟨id, ⟨lat, lon⟩⟩

/-- The road in a row. An empty limit is none, and an empty flag is not set. -/
def roadAt? (columns : List Column) (i : Nat) : Option (Road Float) := do
  let source ← (cellAt? columns "source" i).bind (·.whole?)
  let target ← (cellAt? columns "target" i).bind (·.whole?)
  let length ← (cellAt? columns "length_m" i).bind (·.float?)
  let className ← (← (cellAt? columns "classification" i).bind (·.text?))
  let limit ← (cellAt? columns "posted_limit" i).bind (·.text?)
  let oneWay ← (cellAt? columns "one_way" i).bind (·.flag?)
  return ⟨source, target, length, className, limit, oneWay.getD false⟩

/-- A reader reads the rows of a table: it accepts the tables that fit, gives the rows in their order, each
once, whatever the size of the batches, and looks at no column that is not needed. -/
structure ReadsRows (needs : List Need) (rowAt? : List Column → Nat → Option β)
    (read : Nat → Table → Except Misfit (List β)) : Prop where
  accepted : ∀ size t, 0 < size → ((∃ xs, read size t = .ok xs) ↔ t.Fits needs)
  rows : ∀ size t xs, 0 < size → read size t = .ok xs →
    List.Forall₂ (fun i x => rowAt? t.columns i = some x) (List.range t.rows) xs
  batching : ∀ size size' t xs, 0 < size → 0 < size' → read size t = .ok xs → read size' t = .ok xs
  extra : ∀ size t t', t'.rows = t.rows →
    (∀ need ∈ needs, column t'.columns need.name = column t.columns need.name) → read size t' = read size t

/-- A table fits unless it is flawed. -/
theorem Table.fits_iff {needs : List Need} {t : Table} : t.Fits needs ↔ ¬ t.Flawed needs := by
  rw [Table.not_flawed_iff]
  refine forall₂_congr fun need _ => ⟨?_, ?_⟩
  · rintro ⟨c, hc, hfits⟩
    refine ⟨⟨c, hc⟩, (Nat.eq_zero_or_pos t.rows).imp_right fun hrows => ?_⟩
    exact ⟨c, hc, hfits hrows⟩
  · rintro ⟨⟨c, hc⟩, hmet⟩
    refine ⟨c, hc, fun hrows => ?_⟩
    obtain ⟨c', hc', hfits⟩ := hmet.resolve_left (by omega)
    rw [hc] at hc'
    cases hc'
    exact hfits

/-! ## Columns in part -/

section Parts
variable {columns : List Column} {name : String} {i n rows : Nat}

theorem column_map {f : Column → Column} (hf : ∀ c, (f c).name = c.name) (columns : List Column)
    (name : String) : column (columns.map f) name = (column columns name).map f := by
  unfold column
  rw [List.find?_map]
  simp only [Function.comp_def, hf]
  cases columns.find? fun c => c.name = name <;> rfl

theorem cellAt?_take (hi : i < n) : cellAt? (columns.map (.take n)) name i = cellAt? columns name i := by
  unfold cellAt?
  rw [column_map (f := .take n) fun _ => rfl]
  cases column columns name with
  | error misfit => rfl
  | ok c => simp [Except.map, Column.take, hi]

theorem cellAt?_drop : cellAt? (columns.map (.drop n)) name i = cellAt? columns name (n + i) := by
  unfold cellAt?
  rw [column_map (f := .drop n) fun _ => rfl]
  cases column columns name with
  | error misfit => rfl
  | ok c => simp [Except.map, Column.drop]

theorem size_of_mem_take (heven : ∀ c ∈ columns, c.size = rows) :
    ∀ c ∈ columns.map (Column.take n), c.size = min n rows := by
  refine List.forall_mem_map.2 fun c hc => ?_
  rw [← heven c hc]
  exact List.length_take

theorem size_of_mem_drop (heven : ∀ c ∈ columns, c.size = rows) :
    ∀ c ∈ columns.map (Column.drop n), c.size = rows - n := by
  refine List.forall_mem_map.2 fun c hc => ?_
  rw [← heven c hc]
  exact List.length_drop

end Parts

/-! ## One batch -/

section Batch
variable {columns : List Column} {name : String} {rows : Nat} {places : List Nat} {xs : List β} {ys : List γ}
  {P : Nat → β → Prop} {Q : Nat → γ → Prop}

/-- Two lists that match the same places can be joined place by place. -/
theorem forall₂_zipWith {δ : Type} {f : β → γ → δ} {R : Nat → δ → Prop}
    (h : ∀ i x y, P i x → Q i y → R i (f x y)) (hx : List.Forall₂ P places xs)
    (hy : List.Forall₂ Q places ys) : List.Forall₂ R places (List.zipWith f xs ys) := by
  induction hx generalizing ys with
  | nil => exact .nil
  | cons hP _ ih =>
    obtain ⟨y, rest, hQ, hrest, rfl⟩ := List.forall₂_cons_left_iff.1 hy
    exact .cons (h _ _ _ hP hQ) (ih hrest)

theorem forall₂_zip (hx : List.Forall₂ P places xs) (hy : List.Forall₂ Q places ys) :
    List.Forall₂ (fun i p => P i p.1 ∧ Q i p.2) places (xs.zip ys) :=
  forall₂_zipWith (fun _ _ _ hP hQ => ⟨hP, hQ⟩) hx hy

theorem forall₂_range (xs : List β) : List.Forall₂ (fun i x => xs[i]? = some x) (List.range xs.length) xs := by
  rw [List.forall₂_iff_get]
  refine ⟨List.length_range, fun i _ hi => ?_⟩
  simp

/-- A column lists the cells at its places. -/
theorem forall₂_cellAt? {c : Column} (heven : ∀ c ∈ columns, c.size = rows)
    (hc : column columns name = .ok c) :
    List.Forall₂ (fun i cell => cellAt? columns name i = some ⟨c.type, cell⟩) (List.range rows) c.cells := by
  rw [← heven c (List.mem_of_find?_eq_some (column_eq_ok.1 hc))]
  refine (forall₂_range c.cells).imp fun i cell hcell => ?_
  simp only [cellAt?, hc, hcell, Option.map_some]

theorem forall₂_wholes (heven : ∀ c ∈ columns, c.size = rows) {ids : List Int64}
    (h : wholes columns name = .ok ids) : List.Forall₂
      (fun i id => (cellAt? columns name i).bind TypedCell.whole? = some id) (List.range rows) ids := by
  unfold wholes at h
  obtain ⟨c, hc, h⟩ := bind_eq_ok.1 h
  have hcells := forall₂_cellAt? heven hc
  split at h
  · rw [eq_of_full h, List.forall₂_map_right_iff] at hcells
    refine hcells.imp fun i id hcell => ?_
    rw [hcell]
    rfl
  · cases h

theorem forall₂_floats (heven : ∀ c ∈ columns, c.size = rows) {values : List Float}
    (h : floats columns name = .ok values) : List.Forall₂
      (fun i x => (cellAt? columns name i).bind TypedCell.float? = some x) (List.range rows) values := by
  unfold floats at h
  obtain ⟨c, hc, h⟩ := bind_eq_ok.1 h
  have hcells := forall₂_cellAt? heven hc
  split at h
  · rw [eq_of_full h, List.forall₂_map_right_iff] at hcells
    refine hcells.imp fun i x hcell => ?_
    rw [hcell]
    rfl
  · cases h

theorem forall₂_optionalTexts (heven : ∀ c ∈ columns, c.size = rows) {values : List (Option String)}
    (h : optionalTexts columns name = .ok values) : List.Forall₂
      (fun i x => (cellAt? columns name i).bind TypedCell.text? = some x) (List.range rows) values := by
  unfold optionalTexts at h
  obtain ⟨c, hc, h⟩ := bind_eq_ok.1 h
  have hcells := forall₂_cellAt? heven hc
  split at h
  · cases h
    refine hcells.imp fun i x hcell => ?_
    rw [hcell]
    rfl
  · cases h
    refine hcells.imp fun i x hcell => ?_
    rw [hcell]
    rfl
  · cases h

theorem forall₂_texts (heven : ∀ c ∈ columns, c.size = rows) {values : List String}
    (h : texts columns name = .ok values) : List.Forall₂
      (fun i x => (cellAt? columns name i).bind TypedCell.text? = some (some x)) (List.range rows) values := by
  unfold texts at h
  obtain ⟨c, -, h⟩ := bind_eq_ok.1 h
  split at h
  · cases h
  · obtain ⟨cells, hcells, h⟩ := bind_eq_ok.1 h
    have hoptional := forall₂_optionalTexts heven hcells
    rwa [eq_of_full h, List.forall₂_map_right_iff] at hoptional

theorem forall₂_flags (heven : ∀ c ∈ columns, c.size = rows) {values : List Bool}
    (h : flags columns name = .ok values) : List.Forall₂
      (fun i x => ((cellAt? columns name i).bind TypedCell.flag?).map (·.getD false) = some x)
      (List.range rows) values := by
  unfold flags at h
  obtain ⟨c, hc, h⟩ := bind_eq_ok.1 h
  have hcells := forall₂_cellAt? heven hc
  split at h
  · cases h
    rw [List.forall₂_map_right_iff]
    refine hcells.imp fun i x hcell => ?_
    rw [hcell]
    rfl
  · cases h

/-- A batch gives the junctions of its rows. -/
theorem forall₂_junctionsOfBatch (heven : ∀ c ∈ columns, c.size = rows) {js : List (Junction Point)}
    (h : junctionsOfBatch columns = .ok js) :
    List.Forall₂ (fun i j => junctionAt? columns i = some j) (List.range rows) js := by
  unfold junctionsOfBatch at h
  simp only [bind_eq_ok] at h
  obtain ⟨ids, hids, lats, hlats, lons, hlons, h⟩ := h
  cases h
  have hpositions := forall₂_zipWith (f := Point.mk) (R := fun i p =>
    (cellAt? columns "lat" i).bind TypedCell.float? = some p.lat ∧
      (cellAt? columns "lon" i).bind TypedCell.float? = some p.lon)
    (fun _ _ _ hlat hlon => ⟨hlat, hlon⟩) (forall₂_floats heven hlats) (forall₂_floats heven hlons)
  refine forall₂_zipWith (fun i id p hid hp => ?_) (forall₂_wholes heven hids) hpositions
  simp [junctionAt?, hid, hp]

/-- A batch gives the roads of its rows. -/
theorem forall₂_roadsOfBatch (heven : ∀ c ∈ columns, c.size = rows) {rs : List (Road Float)}
    (h : roadsOfBatch columns = .ok rs) :
    List.Forall₂ (fun i r => roadAt? columns i = some r) (List.range rows) rs := by
  unfold roadsOfBatch at h
  simp only [bind_eq_ok] at h
  obtain ⟨sources, hsources, targets, htargets, lengths, hlengths, classes, hclasses, limits, hlimits,
    oneWays, honeWays, h⟩ := h
  split at h
  · cases h
  · cases h
    have hends := forall₂_zip (forall₂_wholes heven hsources) (forall₂_wholes heven htargets)
    have hkinds := forall₂_zip (forall₂_texts heven hclasses)
      (forall₂_zip (forall₂_optionalTexts heven hlimits) (forall₂_flags heven honeWays))
    have hall := forall₂_zip hends (forall₂_zip (forall₂_floats heven hlengths) hkinds)
    rw [List.forall₂_map_right_iff]
    refine hall.imp fun i p hp => ?_
    obtain ⟨⟨source, target⟩, length, className, limit, oneWay⟩ := p
    obtain ⟨⟨hsource, htarget⟩, hlength, hclass, hlimit, hflag⟩ := hp
    obtain ⟨flag, hflag, hoff⟩ := Option.map_eq_some_iff.1 hflag
    simp [roadAt?, hsource, htarget, hlength, hclass, hlimit, hflag, hoff]

end Batch

/-! ## All batches -/

section Batches
variable {needs : List Need} {rowAt? : List Column → Nat → Option β} {names : List String}
  {ofBatch : List Column → Except Misfit (List β)} {columns columns' : List Column} {size rows : Nat}

theorem batchesOf_eq_nil (h : rows = 0 ∨ size = 0) (columns : List Column) :
    batchesOf size rows columns = [] := by
  rw [batchesOf, if_pos h]

theorem batchesOf_eq_cons (h : ¬ (rows = 0 ∨ size = 0)) (columns : List Column) :
    batchesOf size rows columns =
      columns.map (.take size) :: batchesOf size (rows - size) (columns.map (.drop size)) := by
  rw [batchesOf, if_neg h]

/-- What is read of a batch are its rows, which depend on certain columns alone. -/
structure Rowwise (names : List String) (rowAt? : List Column → Nat → Option β)
    (ofBatch : List Column → Except Misfit (List β)) : Prop where
  take : ∀ columns n i, i < n → rowAt? (columns.map (.take n)) i = rowAt? columns i
  drop : ∀ columns n i, rowAt? (columns.map (.drop n)) i = rowAt? columns (n + i)
  batch : ∀ columns rows xs, (∀ c ∈ columns, c.size = rows) → ofBatch columns = .ok xs →
    List.Forall₂ (fun i x => rowAt? columns i = some x) (List.range rows) xs
  congr : ∀ columns columns', (∀ name ∈ names, column columns' name = column columns name) →
    ofBatch columns' = ofBatch columns

theorem rowwise_junctions : Rowwise junctionColumns junctionAt? junctionsOfBatch where
  take columns n i hi := by simp only [junctionAt?, cellAt?_take hi]
  drop columns n i := by simp only [junctionAt?, cellAt?_drop]
  batch columns rows js heven h := forall₂_junctionsOfBatch heven h
  congr columns columns' h := by
    simp only [junctionColumns, List.forall_mem_cons] at h
    simp only [junctionsOfBatch, wholes, floats, h]

theorem rowwise_roads : Rowwise roadColumns roadAt? roadsOfBatch where
  take columns n i hi := by simp only [roadAt?, cellAt?_take hi]
  drop columns n i := by simp only [roadAt?, cellAt?_drop]
  batch columns rows rs heven h := forall₂_roadsOfBatch heven h
  congr columns columns' h := by
    simp only [roadColumns, List.forall_mem_cons] at h
    simp only [roadsOfBatch, wholes, floats, texts, optionalTexts, flags, h]

/-- The rows of the batches, one batch after the other, are the rows of the table. -/
theorem Rowwise.forall₂_batchesOf (hr : Rowwise names rowAt? ofBatch) (hsize : 0 < size)
    (heven : ∀ c ∈ columns, c.size = rows) {parts : List (List β)}
    (h : (batchesOf size rows columns).mapM ofBatch = .ok parts) :
    List.Forall₂ (fun i x => rowAt? columns i = some x) (List.range rows) parts.flatten := by
  induction hn : rows using Nat.strongRecOn generalizing rows columns parts with
  | _ n ih =>
    subst hn
    by_cases h0 : rows = 0
    · rw [batchesOf_eq_nil (.inl h0)] at h
      cases h
      rw [h0]
      exact .nil
    · rw [batchesOf_eq_cons (by omega), List.mapM_cons] at h
      obtain ⟨first, hfirst, h⟩ := bind_eq_ok.1 h
      obtain ⟨rest, hrest, h⟩ := bind_eq_ok.1 h
      cases h
      have hfront := hr.batch _ _ first (size_of_mem_take heven) hfirst
      have hback := ih (rows - size) (by omega) (size_of_mem_drop heven) hrest rfl
      have hplaces : List.range rows =
          List.range (min size rows) ++ (List.range (rows - size)).map (min size rows + ·) := by
        rw [← List.range_add]
        congr 1
        omega
      rw [hplaces, List.flatten_cons]
      have hinFront := (List.forall₂_and_left _ _).2 ⟨fun i hi => List.mem_range.1 hi, hfront⟩
      have hinBack := (List.forall₂_and_left _ _).2 ⟨fun i hi => List.mem_range.1 hi, hback⟩
      refine List.rel_append (hinFront.imp fun i x hx => ?_)
        (List.forall₂_map_left_iff.2 (hinBack.imp fun i x hx => ?_))
      · rw [← hx.2, hr.take columns size i (by omega)]
      · -- Where rows are left, the batch before them is a whole one.
        have hwhole : min size rows = size := by omega
        rw [hwhole, ← hx.2, hr.drop]

/-- What is read of each batch depends on certain columns alone. -/
theorem Rowwise.mapM_congr (hr : Rowwise names rowAt? ofBatch)
    (h : ∀ name ∈ names, column columns' name = column columns name) :
    (batchesOf size rows columns').mapM ofBatch = (batchesOf size rows columns).mapM ofBatch := by
  induction hn : rows using Nat.strongRecOn generalizing rows columns columns' with
  | _ n ih =>
    subst hn
    by_cases h0 : rows = 0 ∨ size = 0
    · rw [batchesOf_eq_nil h0, batchesOf_eq_nil h0]
    · have hmap {f : Column → Column} (hf : ∀ c, (f c).name = c.name) :
          ∀ name ∈ names, column (columns'.map f) name = column (columns.map f) name := by
        intro name hname
        rw [column_map hf, column_map hf, h name hname]
      rw [batchesOf_eq_cons h0, batchesOf_eq_cons h0, List.mapM_cons, List.mapM_cons,
        hr.congr _ _ (hmap (f := .take size) fun _ => rfl),
        ih (rows - size) (by omega) (hmap (f := .drop size) fun _ => rfl) rfl]

/-- The look at the columns depends on them alone. -/
theorem forIn_columns_congr (h : ∀ name ∈ names, column columns' name = column columns name) :
    (forIn (m := Except Misfit) names PUnit.unit fun name _ => do
      discard (column columns' name)
      return ForInStep.yield PUnit.unit) =
    forIn (m := Except Misfit) names PUnit.unit fun name _ => do
      discard (column columns name)
      return ForInStep.yield PUnit.unit := by
  induction names with
  | nil => rfl
  | cons name rest ih =>
    obtain ⟨hname, hrest⟩ := List.forall_mem_cons.1 h
    rw [List.forIn_cons, List.forIn_cons, hname]
    refine bind_congr fun step => ?_
    cases step with
    | done _ => rfl
    | yield _ => exact ih hrest

/-- A reader that gives the rows of a batch gives the rows of a table. -/
theorem Rowwise.readsRows (hr : Rowwise (needs.map (·.name)) rowAt? ofBatch)
    (hbatch : ∀ batch, (∃ rows, ofBatch batch = .ok rows) ↔ ∀ need ∈ needs, need.Met batch) :
    ReadsRows needs rowAt? (readTable (needs.map (·.name)) ofBatch) := by
  have hrows (size : Nat) (t : Table) (xs : List β) (hsize : 0 < size)
      (h : readTable (needs.map (·.name)) ofBatch size t = .ok xs) :
      List.Forall₂ (fun i x => rowAt? t.columns i = some x) (List.range t.rows) xs := by
    unfold readTable at h
    obtain ⟨_, -, h⟩ := bind_eq_ok.1 h
    obtain ⟨parts, hparts, h⟩ := bind_eq_ok.1 h
    cases h
    exact hr.forall₂_batchesOf hsize t.even hparts
  have haccepted (size : Nat) (t : Table) (hsize : 0 < size) :
      (∃ xs, readTable (needs.map (·.name)) ofBatch size t = .ok xs) ↔ t.Fits needs := by
    rw [exists_readTable_iff hbatch hsize t, Table.fits_iff]
  refine ⟨haccepted, hrows, ?_, ?_⟩
  · intro size size' t xs hsize hsize' h
    obtain ⟨ys, hys⟩ := (haccepted size' t hsize').2 ((haccepted size t hsize).1 ⟨xs, h⟩)
    have hsame : ys = xs := by
      refine List.right_unique_forall₂' (fun i x y hx hy => ?_) (hrows size' t ys hsize' hys)
        (hrows size t xs hsize h)
      exact Option.some.inj (hx.symm.trans hy)
    rw [hys, hsame]
  · intro size t t' hsame hcolumns
    have hnames : ∀ name ∈ needs.map (·.name), column t'.columns name = column t.columns name :=
      List.forall_mem_map.2 hcolumns
    unfold readTable Table.batches
    rw [forIn_columns_congr hnames, hsame, hr.mapM_congr hnames]

end Batches

/-- The readers of junctions and of roads read the rows of tables. -/
theorem readers_read_rows : ReadsRows junctionNeeds junctionAt? readJunctions ∧
    ReadsRows roadNeeds roadAt? readRoads := by
  have hjunctions : Rowwise (junctionNeeds.map (·.name)) junctionAt? junctionsOfBatch := rowwise_junctions
  have hroads : Rowwise (roadNeeds.map (·.name)) roadAt? roadsOfBatch := rowwise_roads
  exact ⟨hjunctions.readsRows fun _ => exists_junctionsOfBatch_iff,
    hroads.readsRows fun _ => exists_roadsOfBatch_iff⟩

end RoadRouting.Dataset
