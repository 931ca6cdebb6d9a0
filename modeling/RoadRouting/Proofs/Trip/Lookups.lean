import RoadRouting.Proofs.Trip.LastWrites
import RoadRouting.Proofs.Trip.Routes

/-!
# Looking up the ends of a route

An end of a route is looked up in the network, and where its position is not known its partition is
loaded first. What is found lies where the index has it (`Planner.resolve_eq_ok`). If both ends are
found, and edges lead from one to the other, there is a route (`Planner.connect_of_walk`).
-/

namespace RoadRouting.Trip
set_option autoImplicit false
open Dataset (Partition)
open Grid (Cell CellSet)
open Network (LawfulCost NodeId Quantity)
open Snap (Hit)

variable {α : Type}

/-- The position that a partition gives to a node; of several rows the last one counts. -/
def rowPosition? (part : Partition α Point) (id : Int64) : Option Point :=
  (part.junctions.filter (·.id = id)).getLast?.map (·.position)

/-- The node of a hit lies where the index has it. -/
def Confirms (g : Network α Point) (hit : Hit) : Prop :=
  ∃ q, g.positionOf hit.id = some q ∧ (q == hit.position) = true

section Looking
variable {g : Network α Point} {hit : Hit}

theorem confirms_of_loadedNode {v : NodeId} (h : loadedNode g hit = .ok (some v)) : Confirms g hit := by
  rw [loadedNode_eq] at h
  split at h
  · cases h
  · rename_i q hq
    split at h
    · rename_i heq
      exact ⟨q, hq, heq⟩
    · cases h

theorem loadedNode_of_confirms (h : Confirms g hit) : ∃ v, loadedNode g hit = .ok (some v) := by
  obtain ⟨q, hq, heq⟩ := h
  exact loadedNode_of_position hq heq

end Looking

variable [Quantity α]

/-- Changes give positions to nodes, the last ones first, and leave the others where they are. -/
theorem MakesAll.positionOf {travel : Travel α} {ps : List (Partition α Point)} {g g' : Network α Point}
    (hg : g.Grown) (h : MakesAll (ps.flatMap (changesOf travel)) g g') (id : Int64) :
    g'.positionOf id = (((ps.flatMap (·.junctions)).filter (·.id = id)).getLast?.map (·.position)).or
      (g.positionOf id) := by
  have hchart (k : Network α Point) : k.positionOf id = k.chart.position id := rfl
  rw [hchart, hchart, h.chart_eq hg, position_foldl_write, ← List.getLast?_filterMap,
    filterMap_position?, List.getLast?_map]

namespace Planner
variable {p p' : Planner α} {read : Reader α} {hit start goal : Hit}

/-! ## Loading a partition -/

omit [Quantity α] in
theorem eq_of_contains_one {c cell : Cell} (h : ((∅ : CellSet).insert cell).contains c) : c = cell := by
  rcases Std.TreeSet.mem_insert.1 h with heq | hnone
  · exact (Std.LawfulEqCmp.compare_eq_iff_eq.1 heq).symm
  · exact absurd hnone (by simp)

omit [Quantity α] in
/-- At most the one cell of a request is pending. -/
theorem pending_of_one (h : Holding α Point) (available : CellSet) (cell : Cell) :
    h.pending available ((∅ : CellSet).insert cell) = [] ∨
      h.pending available ((∅ : CellSet).insert cell) = [cell] := by
  apply eq_nil_or_singleton ((nodup_toList _).filter _)
  intro c hc
  exact eq_of_contains_one (Std.TreeSet.mem_toList.1 (Holding.mem_pending.1 hc).1)

/-- A request for one cell changes nothing, or gives the positions of its partition. -/
theorem ensure_one (hg : p.holding.network.Grown) {cell : Cell} {report : Report}
    (h : p.ensure read ((∅ : CellSet).insert cell) = (.ok report, p')) :
    p'.holding.network = p.holding.network ∨ ∃ part, read cell = .ok part ∧
      ∀ id, p'.holding.network.positionOf id =
        (rowPosition? part id).or (p.holding.network.positionOf id) := by
  obtain ⟨ps, hend⟩ :=
    Holding.ensure_ensured p.holding (p.supply read) ((∅ : CellSet).insert cell)
  unfold ensure at h
  rcases he : p.holding.ensure (p.supply read) ((∅ : CellSet).insert cell) with ⟨answer, holding⟩
  rw [he] at hend
  simp only [he] at h
  cases hend with
  | repeated _ =>
    cases h
    exact .inl rfl
  | unreadable _ _ => cases h
  | full _ _ _ => cases h
  | merged _ hps hm =>
    cases h
    obtain ⟨hmade, -, -⟩ := makesAll_of_merge hm
    rcases pending_of_one p.holding (p.supply read).available cell with hpending | hpending
    · rw [hpending] at hps
      cases hps
      left
      cases hmade
      rfl
    · rw [hpending, List.mapM_cons] at hps
      cases hread : (p.supply read).read cell with
      | error f => simp [hread, bind, Except.bind] at hps
      | ok part =>
        simp only [hread, List.mapM_nil, bind, Except.bind, pure, Except.pure, Except.ok.injEq] at hps
        subst hps
        refine .inr ⟨part, hread, fun id => ?_⟩
        have hpositions := hmade.positionOf hg id
        rwa [List.flatMap_singleton] at hpositions

/-! ## Looking up an end -/

/-- An end is found at once, or its position is not known and it is found once its partition is
there. -/
theorem resolve_ok_cases {v : NodeId} (h : p.resolve read hit = (.ok v, p')) :
    loadedNode p'.holding.network hit = .ok (some v) ∧
      (p' = p ∨ p.holding.network.positionOf hit.id = none ∧ p.catalog.cells.contains hit.cell ∧
        ∃ report, p.ensure read ((∅ : CellSet).insert hit.cell) = (.ok report, p')) := by
  unfold resolve at h
  cases h1 : loadedNode p.holding.network hit with
  | error f => simp [h1] at h
  | ok found =>
    cases found with
    | some w =>
      simp only [h1, Prod.mk.injEq, Except.ok.injEq] at h
      obtain ⟨rfl, rfl⟩ := h
      exact ⟨h1, .inl rfl⟩
    | none =>
      simp only [h1] at h
      split at h
      · rename_i hlisted
        rcases he : p.ensure read ((∅ : CellSet).insert hit.cell) with ⟨_ | report, p₁⟩
        · simp [he] at h
        · simp only [he] at h
          cases h2 : loadedNode p₁.holding.network hit with
          | error f => simp [h2] at h
          | ok later =>
            cases later with
            | none => simp [h2] at h
            | some w =>
              simp only [h2, Prod.mk.injEq, Except.ok.injEq] at h
              obtain ⟨rfl, rfl⟩ := h
              exact ⟨h2, .inr ⟨positionOf_of_loadedNode h1, hlisted, report, rfl⟩⟩
      · simp at h

/-- An end that was looked up lies where the index has it. Either nothing was loaded, or its position
was not known and its partition gave the positions that it has. -/
theorem resolve_eq_ok (hg : p.holding.network.Grown) {v : NodeId}
    (h : p.resolve read hit = (.ok v, p')) : Confirms p'.holding.network hit ∧
      (p' = p ∨ p.holding.network.positionOf hit.id = none ∧ ∃ part, read hit.cell = .ok part ∧
        ∀ id, p'.holding.network.positionOf id =
          (rowPosition? part id).or (p.holding.network.positionOf id)) := by
  obtain ⟨hnode, hcase⟩ := resolve_ok_cases h
  have hthere := confirms_of_loadedNode hnode
  refine ⟨hthere, ?_⟩
  rcases hcase with hsame | ⟨hnone, -, report, he⟩
  · exact .inl hsame
  · right
    rcases ensure_one hg he with hsame | hpart
    · obtain ⟨q, hq, -⟩ := hthere
      rw [hsame, hnone] at hq
      cases hq
    · exact ⟨hnone, hpart⟩

/-- An end that lies where the index has it is found without loading anything. -/
theorem resolve_of_confirms (read : Reader α) (h : Confirms p.holding.network hit) :
    ∃ v, p.resolve read hit = (.ok v, p) := by
  obtain ⟨v, hv⟩ := loadedNode_of_confirms h
  exact ⟨v, resolve_of_loadedNode read hv⟩

/-- An end of which the position is not known is found if its partition gives the right one. -/
theorem resolve_of_ensure (hnone : p.holding.network.positionOf hit.id = none)
    (hlisted : p.catalog.cells.contains hit.cell) {report : Report}
    (he : p.ensure read ((∅ : CellSet).insert hit.cell) = (.ok report, p'))
    (h : Confirms p'.holding.network hit) : ∃ v, p.resolve read hit = (.ok v, p') := by
  have hunknown : loadedNode p.holding.network hit = .ok none := by
    rw [loadedNode_eq, hnone]
  obtain ⟨v, hv⟩ := loadedNode_of_confirms h
  refine ⟨v, ?_⟩
  unfold resolve
  simp only [hunknown, hlisted, if_true, he, hv]

/-- An end whose partition cannot be loaded is not found. -/
theorem resolve_of_unloaded (hnone : p.holding.network.positionOf hit.id = none)
    (hlisted : p.catalog.cells.contains hit.cell) {f : Fault}
    (he : p.ensure read ((∅ : CellSet).insert hit.cell) = (.error f, p')) :
    p.resolve read hit = (.error f, p') := by
  have hunknown : loadedNode p.holding.network hit = .ok none := by
    rw [loadedNode_eq, hnone]
  unfold resolve
  simp only [hunknown, hlisted, if_true, he]

/-! ## Connecting both ends -/

/-- A planner finds what its index would give without a memory. -/
theorem nearest_of_snap {ok : Reader α → Prop} (hr : p.index.Remembers) (m : Moves ok p p') {point : Point}
    (h : p.index.snap point p.settings.snapRadius = .ok (some hit)) :
    ∃ p₂, p'.nearest point p'.settings.snapRadius = (.ok (some hit), p₂) := by
  rcases hn : p'.nearest point p'.settings.snapRadius with ⟨answer, p₂⟩
  have hmapped := m.nearest_eq hr hn
  rw [h] at hmapped
  cases hmapped
  exact ⟨p₂, rfl⟩

/-- When its corridor is loaded and both ends are near sampled nodes, these are connected. -/
theorem route_of_snap {report : Report} {p₁ : Planner α} {origin destination : Point}
    (objective : Objective) (hr : p.index.Remembers)
    (hcovered : (p.corridor origin destination).isEmpty = false)
    (h1 : p.ensure read (p.corridor origin destination).available = (.ok report, p₁))
    (hstart : p.index.snap origin p.settings.snapRadius = .ok (some start))
    (hgoal : p.index.snap destination p.settings.snapRadius = .ok (some goal)) :
    ∃ p₃ warnings, Snapped p read origin destination start goal p₃ ∧
      p.route read origin destination objective =
        p₃.connect read objective (p.corridor origin destination).straight start goal warnings := by
  have m1 : Moves (fun _ => True) p p₁ := moves_of_ensure trivial h1
  obtain ⟨p₂, h2⟩ := nearest_of_snap hr m1 hstart
  obtain ⟨p₃, h3⟩ := nearest_of_snap hr (m1.trans (moves_of_nearest h2)) hgoal
  refine ⟨p₃, (p.select origin destination p.settings.corridorWidth).2, .intro hcovered h1 h2 h3, ?_⟩
  have hcorridor : (p.select origin destination p.settings.corridorWidth).1 =
    p.corridor origin destination := rfl
  unfold route
  simp only [hcorridor, hcovered, if_false, Bool.false_eq_true, h1, h2, h3]

/-- Once both ends are found they are connected, if edges of finite cost lead from one to the other. -/
theorem connect_of_walk [LawfulCost α] {p₁ p₂ : Planner α} {u v : NodeId} {es : List (Network.Edge α)}
    {objective : Objective} (hg : p.holding.network.Grown) (hguided : IsStandard p.guided)
    (hlimit : p.settings.stepLimit = none) (hstart : p.resolve read start = (.ok u, p₁))
    (hgoal : p₁.resolve read goal = (.ok v, p₂)) (hw : p₂.holding.network.Weighted objective)
    (hes : p₂.holding.network.Walk u es v) (hfinite : Network.total objective es < Network.Cost.infinite)
    (straight : Float) (warnings : List Warning) :
    ∃ r more, p.connect read objective straight start goal warnings = ⟨.ok (some r), more, p₂⟩ ∧
      r.path.head? = some start.id ∧ r.path.getLast? = some goal.id := by
  have m₁ : Moves (fun _ => True) p p₁ := moves_of_resolve trivial hstart
  have m₂ : Moves (fun _ => True) p₁ p₂ := moves_of_resolve trivial hgoal
  have hsame := (m₁.trans m₂).same
  have hg₂ := (m₂.fills (m₁.fills hg).grown).grown.wellFormed
  obtain ⟨hsource, htarget⟩ := lookup_of_searched hg hstart hgoal
  have hconnects := searchTrip_connects (hsame.settings ▸ hlimit) (hsame.guided ▸ hguided) hg₂ hw
    (hg₂.index_lt hsource) (hg₂.index_lt htarget) straight
  have hconnect : p.connect read objective straight start goal warnings =
      p₂.finish objective straight start goal u v warnings := by
    unfold connect
    simp only [hstart, hgoal]
  rw [hconnect]
  unfold finish
  rcases hsearch : searchTrip p₂.settings p₂.guided p₂.holding.network u v objective straight with
    ⟨_ | ⟨f, algorithm⟩, more⟩
  · rw [hsearch] at hconnects
    exact absurd hfinite (hconnects es hes)
  · rw [hsearch] at hconnects
    obtain ⟨hleads, -⟩ := hconnects
    obtain ⟨hhead, hlast⟩ := summarize_ends hg₂ hsource htarget hleads algorithm
    simp only [hsearch, Option.map_some]
    exact ⟨_, _, rfl, hhead, hlast⟩

end Planner
end RoadRouting.Trip
