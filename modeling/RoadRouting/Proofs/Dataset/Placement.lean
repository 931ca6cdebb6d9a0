import Mathlib.Data.List.Induction
import RoadRouting.Dataset.Writer
import RoadRouting.Proofs.Lists

/-!
# Where rows go

A junction goes to the cell that contains it, and a road to the cell of the last listed junction that it
begins at. When all rows have a cell (`layOut_eq_ok`), each cell gets its rows in order
(`within_labelled`); otherwise a row without a cell is named (`layOut_invalid`, `layOut_unknown`).
-/

namespace RoadRouting.Dataset
set_option autoImplicit false
open Grid (Cell CellSet Resolution)

variable {β : Type}

/-! ## Rows with their cells -/

/-- The rows that have a cell, each with its cell. -/
def labelled (home : β → Option Cell) (xs : List β) : List (Cell × β) :=
  xs.filterMap fun x => (home x).map fun cell => (cell, x)

section Labels
variable {home : β → Option Cell} {xs : List β} {cell : Cell}

/-- A cell gets the rows whose cell it is. -/
theorem within_labelled : within cell (labelled home xs) = xs.filter fun x => home x = some cell := by
  unfold within labelled
  induction xs with
  | nil => rfl
  | cons x rest ih =>
    cases hx : home x with
    | none => simp [hx, ih]
    | some c =>
      by_cases hc : c = cell
      · simp [hx, hc, ih]
      · simp [hx, hc, ih]

theorem mem_cellsOf {items : List (Cell × β)} : cell ∈ cellsOf items ↔ ∃ p ∈ items, p.1 = cell := by
  have hfold : items.foldl (fun (s : CellSet) p => s.insert p.1) ∅ =
      (items.map Prod.fst).foldl (fun (s : CellSet) c => s.insert c) ∅ := by
    rw [List.foldl_map]
  rw [cellsOf, Std.TreeSet.mem_toList, Std.TreeSet.mem_iff_contains, hfold, contains_foldl_insert]
  simp

theorem mem_cellsOf_labelled : cell ∈ cellsOf (labelled home xs) ↔ ∃ x ∈ xs, home x = some cell := by
  rw [mem_cellsOf]
  constructor
  · rintro ⟨p, hp, rfl⟩
    obtain ⟨x, hx, hlabel⟩ := List.mem_filterMap.1 hp
    obtain ⟨c, hc, rfl⟩ := Option.map_eq_some_iff.1 hlabel
    exact ⟨x, hx, hc⟩
  · rintro ⟨x, hx, hc⟩
    exact ⟨(cell, x), List.mem_filterMap.2 ⟨x, hx, by rw [hc]; rfl⟩, rfl⟩

theorem nodup_cellsOf (items : List (Cell × β)) : (cellsOf items).Nodup := nodup_toList _

/-- Labels each row, or names one that has no cell. -/
def label? (home : β → Option Cell) (fault : β → Fault) (x : β) : Except Fault (Cell × β) :=
  match home x with
  | some cell => .ok (cell, x)
  | none => .error (fault x)

theorem mapM_label?_ok (home : β → Option Cell) (fault : β → Fault) (h : ∀ x ∈ xs, (home x).isSome) :
    xs.mapM (label? home fault) = .ok (labelled home xs) := by
  induction xs with
  | nil => rfl
  | cons x rest ih =>
    obtain ⟨c, hc⟩ := Option.isSome_iff_exists.1 (h x List.mem_cons_self)
    rw [List.mapM_cons, ih fun y hy => h y (List.mem_cons_of_mem _ hy)]
    simp [label?, labelled, hc, bind, Except.bind, pure, Except.pure]

theorem mapM_label?_error (home : β → Option Cell) (fault : β → Fault) {x : β} (hx : x ∈ xs) (hnone : home x = none) :
    ∃ y ∈ xs, home y = none ∧ xs.mapM (label? home fault) = .error (fault y) := by
  have herror : label? home fault x = .error (fault x) := by
    unfold label?
    rw [hnone]
  obtain ⟨y, hy, e, hye, hm⟩ := exists_mapM_error hx herror
  refine ⟨y, hy, ?_⟩
  unfold label? at hye
  split at hye
  · cases hye
  · rename_i hnone
    cases hye
    exact ⟨hnone, hm⟩

end Labels

/-! ## The cells of a network -/

section Network
variable {r : Resolution} {js : List (Junction Point)} {rs : List (Road Float)}

/-- The cell that contains a junction. -/
def cellOf (r : Resolution) (j : Junction Point) : Option Cell := Cell.containing j.position r

/-- The cell of the last junction of an id that is listed. -/
def homeOf (r : Resolution) (js : List (Junction Point)) (id : Int64) : Option Cell :=
  (js.filter fun j => j.id = id).getLast?.bind (cellOf r)

theorem isSome_cellOf {j : Junction Point} : (cellOf r j).isSome ↔ j.position.isValid := by
  unfold cellOf Cell.containing
  by_cases h : j.position.isValid <;> simp [h]

theorem homeOf_cases (r : Resolution) (js : List (Junction Point)) (id : Int64) :
    (homeOf r js id = none ∧ ∀ j ∈ js, j.id ≠ id) ∨ ∃ j ∈ js, j.id = id ∧ homeOf r js id = cellOf r j := by
  unfold homeOf
  cases hlast : (js.filter fun j => j.id = id).getLast? with
  | none =>
    rw [List.getLast?_eq_none_iff, List.filter_eq_nil_iff] at hlast
    exact .inl ⟨rfl, fun j hj heq => hlast j hj (decide_eq_true heq)⟩
  | some j =>
    obtain ⟨hj, hid⟩ := List.mem_filter.1 (List.mem_of_getLast? hlast)
    exact .inr ⟨j, hj, of_decide_eq_true hid, rfl⟩

/-- The table of cells knows the last listed junction of an id. -/
theorem cellTable_labelled (h : ∀ j ∈ js, (cellOf r j).isSome) (id : Int64) :
    (cellTable (labelled (cellOf r) js))[id]? = homeOf r js id := by
  induction js using List.reverseRecOn with
  | nil => simp [cellTable, labelled, homeOf]
  | append_singleton front j ih =>
    obtain ⟨c, hc⟩ := Option.isSome_iff_exists.1 (h j (by simp))
    have hlabelled : labelled (cellOf r) (front ++ [j]) = labelled (cellOf r) front ++ [(c, j)] := by
      simp [labelled, hc]
    have hfront := ih fun x hx => h x (List.mem_append_left _ hx)
    unfold cellTable at hfront ⊢
    rw [hlabelled, List.foldl_append, List.foldl_cons, List.foldl_nil, Std.HashMap.getElem?_insert, hfront]
    unfold homeOf
    rw [List.filter_append]
    by_cases hid : j.id = id
    · simp [hid, hc]
    · simp [hid]

/-- The table of cells knows an id if a junction with it is listed. -/
theorem homeOf_eq_none_iff (h : ∀ j ∈ js, (cellOf r j).isSome) {id : Int64} :
    homeOf r js id = none ↔ ∀ j ∈ js, j.id ≠ id := by
  rcases homeOf_cases r js id with ⟨hnone, hall⟩ | ⟨j, hj, hid, hsome⟩
  · exact ⟨fun _ => hall, fun _ => hnone⟩
  · have hcell := h j hj
    rw [← hsome, Option.isSome_iff_ne_none] at hcell
    exact ⟨fun hn => absurd hn hcell, fun hall => absurd hid (hall j hj)⟩

theorem locate_eq (js : List (Junction Point)) :
    locate r js = js.mapM (label? (cellOf r) .coordinate) := rfl

/-- Labels a road with the cell of the junction it begins at. -/
def roadLabel? (r : Resolution) (js : List (Junction Point)) : Road Float → Except Fault (Cell × Road Float) :=
  label? (fun e => homeOf r js e.source) fun e => .unknownSource e.source e.target

/-- When the positions are valid, it is up to the roads whether all rows have a cell. -/
theorem layOut_of_valid (hjs : ∀ j ∈ js, j.position.isValid) :
    layOut r js rs = (rs.mapM (roadLabel? r js)).map fun roads => (labelled (cellOf r) js, roads) := by
  have hcells : ∀ j ∈ js, (cellOf r j).isSome := fun j hj => isSome_cellOf.2 (hjs j hj)
  have hhome : (fun e : Road Float => (cellTable (labelled (cellOf r) js))[e.source]?) =
      fun e => homeOf r js e.source := funext fun e => cellTable_labelled hcells e.source
  have hassign : assign (cellTable (labelled (cellOf r) js)) rs = rs.mapM (roadLabel? r js) := by
    rw [roadLabel?, ← hhome]
    rfl
  unfold layOut
  rw [locate_eq, mapM_label?_ok _ _ hcells]
  simp only [bind, Except.bind]
  rw [hassign]
  rfl

/-- When also the junctions that roads begin at are listed, all rows have a cell. -/
theorem layOut_eq_ok (r : Resolution) (hjs : ∀ j ∈ js, j.position.isValid)
    (hrs : ∀ e ∈ rs, ∃ j ∈ js, j.id = e.source) :
    layOut r js rs = .ok (labelled (cellOf r) js, labelled (fun e => homeOf r js e.source) rs) := by
  have hhomes : ∀ e ∈ rs, (homeOf r js e.source).isSome := by
    intro e he
    obtain ⟨j, hj, hid⟩ := hrs e he
    rw [Option.isSome_iff_ne_none, ne_eq, homeOf_eq_none_iff fun j hj => isSome_cellOf.2 (hjs j hj)]
    exact fun hall => hall j hj hid
  rw [layOut_of_valid hjs, roadLabel?, mapM_label?_ok _ _ hhomes]
  rfl

/-- A junction that is not on the globe is named. -/
theorem layOut_invalid (r : Resolution) (rs : List (Road Float)) (h : ∃ j ∈ js, ¬ j.position.isValid) :
    ∃ j ∈ js, ¬ j.position.isValid ∧ layOut r js rs = .error (.coordinate j) := by
  have hcell {j : Junction Point} : cellOf r j = none ↔ ¬ j.position.isValid := by
    rw [← isSome_cellOf (r := r), Option.not_isSome_iff_eq_none]
  obtain ⟨j, hj, hinvalid⟩ := h
  obtain ⟨j', hj', hnone, hm⟩ := mapM_label?_error (cellOf r) .coordinate hj (hcell.2 hinvalid)
  refine ⟨j', hj', hcell.1 hnone, ?_⟩
  unfold layOut
  rw [locate_eq, hm]
  rfl

/-- A road that begins at no junction is named. -/
theorem layOut_unknown (r : Resolution) (hjs : ∀ j ∈ js, j.position.isValid)
    (h : ∃ e ∈ rs, ∀ j ∈ js, j.id ≠ e.source) :
    ∃ e ∈ rs, (∀ j ∈ js, j.id ≠ e.source) ∧
      layOut r js rs = .error (.unknownSource e.source e.target) := by
  have hcells : ∀ j ∈ js, (cellOf r j).isSome := fun j hj => isSome_cellOf.2 (hjs j hj)
  obtain ⟨e, he, hunknown⟩ := h
  obtain ⟨e', he', hnone, hm⟩ := mapM_label?_error (fun e => homeOf r js e.source)
    (fun e => .unknownSource e.source e.target) he ((homeOf_eq_none_iff hcells).2 hunknown)
  refine ⟨e', he', (homeOf_eq_none_iff hcells).1 hnone, ?_⟩
  rw [layOut_of_valid hjs, roadLabel?, hm]
  rfl

end Network
end RoadRouting.Dataset
