import Mathlib.Data.List.Flatten
import RoadRouting.Proofs.Dataset.Tables
import RoadRouting.Proofs.Trip.Changes
import RoadRouting.Proofs.Trip.Loading

/-!
# Requests one after the other

What is held after some requests (`held`), each answered with what can be read at its time. As long as
no request meets a full network, what is held follows from the order in which partitions come in
(`loadOrder`), and that order says nothing of numbers, networks or memories: the network has made the
changes of these partitions, and they are the ones that are loaded (`kept`). A dataset with few rows
never fills a network (`roomy_of_few`).
-/

namespace RoadRouting.Trip
set_option autoImplicit false
open Dataset (Catalog Partition)
open Grid (Cell CellSet)
open Network (Full Quantity)
open Store (Disk)

variable {ε α π : Type}

/-- A request: the cells that are asked for, and what can be read at its time. What is read for a cell
is the partition of that cell. -/
structure Request (ε α π : Type) where
  read : Cell → Except ε (Partition α π)
  cells : CellSet
  labelled : ∀ c p, read c = .ok p → p.cell = c

/-- Where the partitions of a request come from. -/
def Request.supply (r : Request ε α π) (available : CellSet) (travel : Travel α) : Supply ε α π :=
  ⟨available, r.read, travel⟩

/-! ## The order in which partitions come in -/

section Order
variable (available : CellSet)

/-- What a request asks for that has a partition and is not there, in ascending order. -/
def missing (there : List (Partition α π)) (r : Request ε α π) : List Cell :=
  r.cells.toList.filter fun c => available.contains c ∧ c ∉ there.map (·.cell)

/-- What a request adds to what is there: all that is missing, or nothing if some of it cannot be
read. -/
def additions (there : List (Partition α π)) (r : Request ε α π) : List (Partition α π) :=
  match (missing available there r).mapM r.read with
  | .ok ps => ps
  | .error _ => []

/-- The partitions that come in with requests, in their order. -/
def loadOrder (rs : List (Request ε α π)) : List (Partition α π) :=
  rs.foldl (fun there r => there ++ additions available there r) []

variable {available} {rs : List (Request ε α π)} {r : Request ε α π}

theorem loadOrder_snoc (rs : List (Request ε α π)) (r : Request ε α π) :
    loadOrder available (rs ++ [r]) =
      loadOrder available rs ++ additions available (loadOrder available rs) r := by
  simp [loadOrder, List.foldl_append]

/-- What came in stays first. -/
theorem loadOrder_mono {rs' : List (Request ε α π)} (h : rs' <+: rs) :
    loadOrder available rs' <+: loadOrder available rs := by
  induction rs using List.reverseRecOn with
  | nil =>
    obtain rfl := List.prefix_nil.1 h
    exact List.prefix_refl _
  | append_singleton rs r ih =>
    rcases List.prefix_concat_iff.1 h with rfl | h
    · exact List.prefix_refl _
    · rw [loadOrder_snoc]
      exact (ih h).trans (List.prefix_append _ _)

/-- What was read is labelled with the cells it was read for. -/
theorem Request.map_cell {cs : List Cell} {ps : List (Partition α π)}
    (h : cs.mapM r.read = .ok ps) : ps.map (·.cell) = cs := by
  have hall := mapM_eq_ok h
  clear h
  induction hall with
  | nil => rfl
  | cons hr _ ih => rw [List.map_cons, r.labelled _ _ hr, ih]

theorem mem_additions {there : List (Partition α π)} {p : Partition α π}
    (h : p ∈ additions available there r) :
    p.cell ∈ missing available there r ∧ r.read p.cell = .ok p := by
  unfold additions at h
  cases hm : (missing available there r).mapM r.read with
  | error e => simp [hm] at h
  | ok ps =>
    simp only [hm] at h
    obtain ⟨c, hc, hcp⟩ := exists_of_mem_left (mapM_eq_ok hm).flip h
    rw [r.labelled c p hcp]
    exact ⟨hc, hcp⟩

/-- When only one partition is missing it is what is added. -/
theorem additions_of_one {there : List (Partition α π)} {c : Cell} {p : Partition α π}
    (hm : missing available there r = [c]) (hr : r.read c = .ok p) : additions available there r = [p] := by
  unfold additions
  simp only [hm, List.mapM_cons, List.mapM_nil, hr, bind, Except.bind, pure, Except.pure]

theorem nodup_missing (there : List (Partition α π)) (r : Request ε α π) :
    (missing available there r).Nodup :=
  (nodup_toList r.cells).filter _

theorem nodup_additions (there : List (Partition α π)) (r : Request ε α π) :
    ((additions available there r).map (·.cell)).Nodup := by
  unfold additions
  cases hm : (missing available there r).mapM r.read with
  | error e => exact List.nodup_nil
  | ok ps =>
    simp only
    rw [Request.map_cell hm]
    exact nodup_missing there r

/-- No partition comes in twice. -/
theorem nodup_loadOrder (available : CellSet) (rs : List (Request ε α π)) :
    ((loadOrder available rs).map (·.cell)).Nodup := by
  induction rs using List.reverseRecOn with
  | nil => exact List.nodup_nil
  | append_singleton rs r ih =>
    rw [loadOrder_snoc, List.map_append]
    refine List.nodup_append.2 ⟨ih, nodup_additions _ r, ?_⟩
    intro a ha b hb
    obtain ⟨p, hp, rfl⟩ := List.mem_map.1 hb
    have hnot := (List.mem_filter.1 (mem_additions hp).1).2
    simp only [decide_eq_true_eq] at hnot
    rintro rfl
    exact hnot.2 ha

/-- What comes in was asked for, has a partition, and is what was read then. -/
theorem mem_loadOrder {p : Partition α π} (h : p ∈ loadOrder available rs) :
    ∃ r ∈ rs, r.cells.contains p.cell ∧ available.contains p.cell ∧ r.read p.cell = .ok p := by
  induction rs using List.reverseRecOn with
  | nil => cases h
  | append_singleton rs r ih =>
    rw [loadOrder_snoc, List.mem_append] at h
    rcases h with h | h
    · obtain ⟨s, hs, hp⟩ := ih h
      exact ⟨s, List.mem_append_left _ hs, hp⟩
    · obtain ⟨hm, hread⟩ := mem_additions h
      obtain ⟨hkeys, hnew⟩ := List.mem_filter.1 hm
      simp only [decide_eq_true_eq] at hnew
      exact ⟨r, by simp, Std.TreeSet.mem_toList.1 hkeys, hnew.1, hread⟩

end Order

/-! ## What is held -/

section Held
variable [Quantity α] (available : CellSet) (travel : Travel α)

/-- What is held after some requests. -/
def held (rs : List (Request ε α π)) : Holding α π :=
  rs.foldl (fun h r => (h.ensure (r.supply available travel) r.cells).2) .empty

/-- The answer to a request after others. -/
def answer (rs : List (Request ε α π)) (r : Request ε α π) : Except (LoadFault ε) Report :=
  ((held available travel rs).ensure (r.supply available travel) r.cells).1

/-- No request meets a full network. -/
def Roomy (rs : List (Request ε α π)) : Prop :=
  ∀ earlier r, earlier ++ [r] <+: rs → ∀ e, answer available travel earlier r ≠ .error (.full e)

/-- What is held follows from the partitions that came in, and what is remembered is loaded. -/
structure Kept (rs : List (Request ε α π)) : Prop where
  made : MakesAll ((loadOrder available rs).flatMap (changesOf travel)) .empty
    (held available travel rs).network
  loaded : ∀ c, (held available travel rs).loader.loaded.contains c ↔
    c ∈ (loadOrder available rs).map (·.cell)
  answered : ∀ request, (held available travel rs).loader.answered.contains request ↔
    ∃ earlier r report, earlier ++ [r] <+: rs ∧ r.cells.toList = request ∧
      answer available travel earlier r = .ok report
  complete : ∀ request, (held available travel rs).loader.answered.contains request →
    ∀ c ∈ request, available.contains c → (held available travel rs).loader.loaded.contains c

/-- What one request does, told by what comes in with it. -/
structure Adds (rs : List (Request ε α π)) (r : Request ε α π) (ps : List (Partition α π)) : Prop where
  added : additions available (loadOrder available rs) r = ps
  made : MakesAll (ps.flatMap (changesOf travel)) (held available travel rs).network
    (held available travel (rs ++ [r])).network
  loaded : ∀ c, (held available travel (rs ++ [r])).loader.loaded.contains c ↔
    (held available travel rs).loader.loaded.contains c ∨ c ∈ ps.map (·.cell)
  answered : ∀ request, (held available travel (rs ++ [r])).loader.answered.contains request ↔
    (held available travel rs).loader.answered.contains request ∨
      ∃ report, r.cells.toList = request ∧ answer available travel rs r = .ok report
  complete : (∃ report, answer available travel rs r = .ok report) → ∀ c ∈ r.cells.toList,
    available.contains c → (held available travel (rs ++ [r])).loader.loaded.contains c

variable {available travel} {rs : List (Request ε α π)} {r : Request ε α π}

theorem held_snoc (rs : List (Request ε α π)) (r : Request ε α π) :
    held available travel (rs ++ [r]) =
      ((held available travel rs).ensure (r.supply available travel) r.cells).2 := by
  simp [held, List.foldl_append]

/-- Requests one after the other keep what the changes of all partitions keep that they can read. -/
theorem held_keeps {K : Network α π → Prop} (hempty : K .empty)
    (hread : ∀ r ∈ rs, ∀ c part, available.contains c → r.read c = .ok part →
      ∀ d ∈ changesOf travel part, d.Keeps K) :
    K (held available travel rs).network := by
  induction rs using List.reverseRecOn with
  | nil => exact hempty
  | append_singleton rs r ih =>
    rw [held_snoc]
    exact Holding.ensure_keeps (ih fun s hs => hread s (List.mem_append_left _ hs)) (hread r (by simp))

/-- What a request does to what is held. -/
theorem exists_ensured (available : CellSet) (travel : Travel α) (rs : List (Request ε α π))
    (r : Request ε α π) : ∃ ps, Holding.Ensured (held available travel rs)
      (r.supply available travel) r.cells (answer available travel rs r) ps
      (held available travel (rs ++ [r])) := by
  rw [held_snoc]
  exact Holding.ensure_ensured ..

theorem Roomy.before {rs' : List (Request ε α π)} (h : Roomy available travel rs) (hp : rs' <+: rs) :
    Roomy available travel rs' :=
  fun earlier r he => h earlier r (he.trans hp)

/-- Merging makes the changes of the partitions, and their cells are loaded. -/
theorem makesAll_of_merge {ps : List (Partition α π)} {h h' : Holding α π} {t t' : Tally}
    (hm : Holding.merge travel ps h t = (.ok t', h')) :
    MakesAll (ps.flatMap (changesOf travel)) h.network h'.network ∧
      h'.loader.answered = h.loader.answered ∧
      ∀ c, h'.loader.loaded.contains c ↔ h.loader.loaded.contains c ∨ c ∈ ps.map (·.cell) := by
  induction ps generalizing h t with
  | nil =>
    cases hm
    exact ⟨.nil, rfl, by simp⟩
  | cons p rest ih =>
    obtain ⟨loader, network⟩ := h
    unfold Holding.merge at hm
    rcases he : applyAll (changesOf travel p) network t with ⟨_ | t₁, g₁⟩
    · simp [he] at hm
    · simp only [he] at hm
      obtain ⟨hmade, hanswered, hloaded⟩ := ih hm
      refine ⟨(makesAll_of_applyAll he).append hmade, hanswered, fun c => ?_⟩
      rw [hloaded]
      simp only [Std.TreeSet.contains_insert, Bool.or_eq_true, beq_iff_eq,
        Std.LawfulEqCmp.compare_eq_iff_eq, List.map_cons, List.mem_cons, eq_comm (a := c)]
      tauto

omit [Quantity α] in
/-- What is pending is what is missing. -/
theorem pending_eq_missing (available : CellSet) {h : Holding α π} {there : List (Partition α π)}
    (hl : ∀ c, h.loader.loaded.contains c ↔ c ∈ there.map (·.cell)) (r : Request ε α π) :
    h.pending available r.cells = missing available there r := by
  refine List.filter_congr fun c _ => ?_
  rw [Bool.eq_iff_iff, Bool.and_eq_true, Bool.not_eq_true', decide_eq_true_eq, ← hl, Bool.not_eq_true]

theorem Kept.empty : Kept available travel ([] : List (Request ε α π)) where
  made := .nil
  loaded c := by simp [held, Holding.empty, loadOrder]
  answered request := by simp [held, Holding.empty]
  complete request h := by simp [held, Holding.empty] at h

/-- An earlier answer is one of the run. -/
theorem exists_answer_snoc {request : List Cell} :
    (∃ earlier s report, earlier ++ [s] <+: rs ++ [r] ∧ s.cells.toList = request ∧
      answer available travel earlier s = .ok report) ↔
    (∃ report, r.cells.toList = request ∧ answer available travel rs r = .ok report) ∨
    ∃ earlier s report, earlier ++ [s] <+: rs ∧ s.cells.toList = request ∧
      answer available travel earlier s = .ok report := by
  constructor
  · rintro ⟨earlier, s, report, hp, hs, ha⟩
    rcases List.prefix_concat_iff.1 hp with heq | hp
    · obtain ⟨rfl, hlast⟩ := List.append_inj' heq rfl
      obtain rfl := List.singleton_inj.1 hlast
      exact .inl ⟨report, hs, ha⟩
    · exact .inr ⟨earlier, s, report, hp, hs, ha⟩
  · rintro (⟨report, hs, ha⟩ | ⟨earlier, s, report, hp, hs, ha⟩)
    · exact ⟨rs, r, report, List.prefix_refl _, hs, ha⟩
    · exact ⟨earlier, s, report, hp.trans (List.prefix_append _ _), hs, ha⟩

/-- Once all that a request asks for is loaded, it adds nothing. -/
theorem Kept.missing_eq_nil (h : Kept available travel rs)
    (ha : (held available travel rs).loader.answered.contains r.cells.toList) :
    missing available (loadOrder available rs) r = [] := by
  refine List.filter_eq_nil_iff.2 ?_
  intro c hc hnew
  simp only [decide_eq_true_eq] at hnew
  exact hnew.2 ((h.loaded c).1 (h.complete _ ha c hc hnew.1))

/-- A request adds nothing when it leaves the network and what is remembered, and if it succeeds was
answered before. -/
theorem Kept.adds_nothing (h : Kept available travel rs)
    (hnothing : additions available (loadOrder available rs) r = [])
    (hnetwork : (held available travel (rs ++ [r])).network = (held available travel rs).network)
    (hloaded : (held available travel (rs ++ [r])).loader.loaded = (held available travel rs).loader.loaded)
    (hanswered : (held available travel (rs ++ [r])).loader.answered =
      (held available travel rs).loader.answered)
    (hold : ∀ report, answer available travel rs r = .ok report →
      (held available travel rs).loader.answered.contains r.cells.toList) :
    Adds available travel rs r [] where
  added := hnothing
  made := by
    rw [hnetwork]
    exact .nil
  loaded c := by simp [hloaded]
  answered request := by
    rw [hanswered]
    constructor
    · exact .inl
    · rintro (hr | ⟨report, rfl, hok⟩)
      · exact hr
      · exact hold report hok
  complete := by
    rintro ⟨report, hok⟩ c hc hca
    rw [hloaded]
    exact h.complete _ (hold report hok) c hc hca

/-- A request that does not meet a full network adds what is missing, or nothing. -/
theorem Kept.adds (h : Kept available travel rs)
    (hroom : ∀ e, answer available travel rs r ≠ .error (.full e)) :
    ∃ ps, Adds available travel rs r ps := by
  have hpending := pending_eq_missing available h.loaded r
  obtain ⟨ps, hend⟩ := exists_ensured available travel rs r
  generalize ha : answer available travel rs r = a at hend
  generalize hn : held available travel (rs ++ [r]) = h' at hend
  refine ⟨ps, ?_⟩
  cases hend with
  | repeated hmem =>
    refine h.adds_nothing ?_ (by rw [hn]) (by rw [hn]) (by rw [hn]) fun _ _ => hmem
    unfold additions
    rw [h.missing_eq_nil hmem]
    rfl
  | unreadable _ hread =>
    change (Holding.pending _ available r.cells).mapM r.read = _ at hread
    refine h.adds_nothing ?_ (by rw [hn]) (by rw [hn]) (by rw [hn]) fun report hok => ?_
    · unfold additions
      rw [← hpending, hread]
    · rw [ha] at hok
      cases hok
  | full _ _ _ => exact absurd ha (hroom _)
  | merged _ hread hmerge =>
    change (Holding.pending _ available r.cells).mapM r.read = _ at hread
    rw [hpending] at hread
    obtain ⟨hmade, hanswered, hloaded⟩ := makesAll_of_merge hmerge
    constructor
    · unfold additions
      rw [hread]
    · rw [hn]
      exact hmade
    · rw [hn]
      exact hloaded
    · intro request
      rw [← hanswered]
      simp only [hn, ha, Std.HashSet.contains_insert, Bool.or_eq_true, beq_iff_eq, Except.ok.injEq,
        exists_and_left, exists_eq', and_true]
      exact or_comm
    · intro _ c hc hca
      rw [hn, hloaded]
      by_cases hcl : c ∈ (loadOrder available rs).map (·.cell)
      · exact .inl ((h.loaded c).2 hcl)
      · right
        rw [Request.map_cell hread]
        exact List.mem_filter.2 ⟨hc, decide_eq_true ⟨hca, hcl⟩⟩

/-- A request keeps what is held in step with what came in. -/
theorem Kept.snoc (h : Kept available travel rs) {ps : List (Partition α π)}
    (hadds : Adds available travel rs r ps) : Kept available travel (rs ++ [r]) where
  made := by
    rw [loadOrder_snoc, hadds.added, List.flatMap_append]
    exact h.made.append hadds.made
  loaded c := by
    rw [hadds.loaded, h.loaded, loadOrder_snoc, hadds.added, List.map_append, List.mem_append]
  answered request := by
    rw [hadds.answered, exists_answer_snoc, h.answered]
    exact or_comm
  complete request hr c hc hca := by
    rcases (hadds.answered request).1 hr with hr | ⟨report, rfl, hok⟩
    · exact (hadds.loaded c).2 (.inl (h.complete request hr c hc hca))
    · exact hadds.complete ⟨report, hok⟩ c hc hca

/-- As long as no request meets a full network, what is held follows from what came in. -/
theorem kept (hroom : Roomy available travel rs) : Kept available travel rs := by
  induction rs using List.reverseRecOn with
  | nil => exact .empty
  | append_singleton rs r ih =>
    have h := ih (hroom.before (List.prefix_append _ _))
    obtain ⟨ps, hadds⟩ := h.adds (hroom rs r (List.prefix_refl _))
    exact h.snoc hadds

/-! ## Little data -/

theorem HasRoom.merge {ps : List (Partition α π)} {h : Holding α π} {n k : Nat}
    (hr : HasRoom h.network (n + 2 * (ps.flatMap (changesOf travel)).length)
      (k + (ps.flatMap (changesOf travel)).length)) (t : Tally) :
    ∃ t' h', Holding.merge travel ps h t = (.ok t', h') ∧ HasRoom h'.network n k := by
  induction ps generalizing h t with
  | nil => exact ⟨t, h, rfl, hr⟩
  | cons p rest ih =>
    obtain ⟨loader, network⟩ := h
    change HasRoom network _ _ at hr
    rw [List.flatMap_cons, List.length_append] at hr
    have hfirst : HasRoom network
        (n + 2 * (rest.flatMap (changesOf travel)).length + 2 * (changesOf travel p).length)
        (k + (rest.flatMap (changesOf travel)).length + (changesOf travel p).length) :=
      ⟨by have := hr.nodes; omega, by have := hr.classes; omega⟩
    obtain ⟨t₁, g₁, he, hr₁⟩ := hfirst.applyAll t
    obtain ⟨t', h', hm, hr'⟩ := ih (h := ⟨{ loader with loaded := loader.loaded.insert p.cell }, g₁⟩) hr₁ t₁
    refine ⟨t', h', ?_, hr'⟩
    simp only [Holding.merge, he, hm]

/-- A request for which there is room does not meet a full network. -/
theorem Kept.hasRoom (h : Kept available travel rs) {n k : Nat}
    (hr : HasRoom (held available travel rs).network
      (n + 2 * ((additions available (loadOrder available rs) r).flatMap (changesOf travel)).length)
      (k + ((additions available (loadOrder available rs) r).flatMap (changesOf travel)).length)) :
    (∀ e, answer available travel rs r ≠ .error (.full e)) ∧
      HasRoom (held available travel (rs ++ [r])).network n k := by
  have hpending := pending_eq_missing available h.loaded r
  obtain ⟨ps, hend⟩ := exists_ensured available travel rs r
  generalize ha : answer available travel rs r = a at hend
  generalize hn : held available travel (rs ++ [r]) = h' at hend
  have hmerge {ps : List (Partition α π)}
      (hread : (Holding.pending (held available travel rs) available r.cells).mapM r.read = .ok ps) :
      ∃ t h₁, Holding.merge travel ps (held available travel rs) .none = (.ok t, h₁) ∧
        HasRoom h₁.network n k := by
    rw [hpending] at hread
    unfold additions at hr
    rw [hread] at hr
    exact hr.merge .none
  cases hend with
  | repeated _ => exact ⟨nofun, hr.mono (by omega) (by omega)⟩
  | unreadable _ _ => exact ⟨nofun, hr.mono (by omega) (by omega)⟩
  | full _ hread hm =>
    obtain ⟨t, h₁, hm', -⟩ := hmerge hread
    have hm : Holding.merge travel _ (held available travel rs) .none = _ := hm
    rw [hm'] at hm
    cases hm
  | merged _ hread hm =>
    obtain ⟨t, h₁, hm', hr'⟩ := hmerge hread
    have hm : Holding.merge travel _ (held available travel rs) .none = _ := hm
    rw [hm'] at hm
    cases hm
    exact ⟨nofun, hr'⟩

/-- As long as there is room for all that comes in, no request meets a full network. -/
theorem roomy_of_hasRoom {n k : Nat}
    (hr : HasRoom (.empty : Network α π)
      (n + 2 * ((loadOrder available rs).flatMap (changesOf travel)).length)
      (k + ((loadOrder available rs).flatMap (changesOf travel)).length)) :
    Roomy available travel rs ∧ HasRoom (held available travel rs).network n k := by
  induction rs using List.reverseRecOn generalizing n k with
  | nil =>
    refine ⟨?_, hr⟩
    intro earlier r hp
    simp at hp
  | append_singleton rs r ih =>
    rw [loadOrder_snoc, List.flatMap_append, List.length_append, Nat.mul_add, ← Nat.add_assoc,
      ← Nat.add_assoc, Nat.add_right_comm n, Nat.add_right_comm k] at hr
    obtain ⟨hroom, hr'⟩ := ih hr
    obtain ⟨hlast, hr''⟩ := (kept hroom).hasRoom (r := r) hr'
    refine ⟨?_, hr''⟩
    intro earlier s hp
    rcases List.prefix_concat_iff.1 hp with heq | hp
    · obtain ⟨rfl, hs⟩ := List.append_inj' heq rfl
      obtain rfl := List.singleton_inj.1 hs
      exact hlast
    · exact hroom earlier s hp

/-- A dataset with few rows never fills a network. -/
theorem roomy_of_few (ps : List (Partition α π))
    (hall : ∀ r ∈ rs, ∀ c p, available.contains c → r.read c = .ok p → p ∈ ps)
    (hroom : HasRoom (.empty : Network α π) (2 * (ps.flatMap (changesOf travel)).length)
      (ps.flatMap (changesOf travel)).length) : Roomy available travel rs := by
  have hsubset : loadOrder available rs ⊆ ps := by
    intro p hp
    obtain ⟨r, hr, -, hlisted, hread⟩ := mem_loadOrder hp
    exact hall r hr p.cell p hlisted hread
  obtain ⟨l, hperm, hsub⟩ := List.subperm_of_subset (nodup_loadOrder available rs).of_map hsubset
  have hle : ((loadOrder available rs).flatMap (changesOf travel)).length ≤
      (ps.flatMap (changesOf travel)).length := by
    rw [← (hperm.flatMap_right _).length_eq]
    exact (hsub.flatMap _).length_le
  refine (roomy_of_hasRoom (n := 0) (k := 0) (hroom.mono ?_ ?_)).1
  · omega
  · omega

/-- A request succeeds when all that is not loaded yet can be read. -/
theorem answer_ok (hroom : ∀ e, answer available travel rs r ≠ .error (.full e))
    (hread : ∀ c ∈ (held available travel rs).pending available r.cells, ∃ p, r.read c = .ok p) :
    ∃ report, answer available travel rs r = .ok report := by
  obtain ⟨ps, hend⟩ := exists_ensured available travel rs r
  generalize answer available travel rs r = a at hend hroom
  generalize held available travel (rs ++ [r]) = h' at hend
  cases hend with
  | repeated _ => exact ⟨_, rfl⟩
  | unreadable _ herror =>
    obtain ⟨c, hc, he⟩ := exists_of_mapM_error herror
    obtain ⟨p, hp⟩ := hread c hc
    have he : r.read c = .error _ := he
    rw [hp] at he
    cases he
  | full _ _ _ => exact absurd rfl (hroom _)
  | merged _ _ _ => exact ⟨_, rfl⟩

end Held

/-- A request for cells of a dataset, as it lies on the disk at that time. -/
def requestTo (c : Catalog) (call : Disk × CellSet) : Request Dataset.Fault Float Point where
  read := c.read call.1
  cells := call.2
  labelled _ _ h := (Catalog.read_eq_ok.1 h).1

end RoadRouting.Trip
