import RoadRouting.Proofs.Network.TwoWay
import RoadRouting.Proofs.Trip.Weights

/-!
# Roads without a direction

A road that is not one-way says the same of its ends in either order, and says it at the same time
(`map_linksOf_comm`). So whichever row comes last, what is known of two identifiers does not depend on
their order, and a network that was filled from such rows only leads back (`twoWay_held`). The searches
from one node to another and back find paths of the same cost, when the costs of its edges are added
without rounding (`two_way_roads_lead_back`).
-/

namespace RoadRouting.Trip
set_option autoImplicit false
open Dataset (Catalog Partition Road)
open Grid (Cell CellSet)
open Network (Link NodeId OrderFreeCost Quantity)
open Network.Cost (IsWeight)
open Store (Disk)

variable {ε α π : Type}

/-- No road of a partition is one-way. -/
def NoOneWay (part : Partition α π) : Prop := ∀ r ∈ part.roads, r.oneWay = false

/-- What a road that is not one-way says of two identifiers it says of them in either order. -/
theorem map_linksOf_comm (travel : Travel α) {r : Road α} (h : r.oneWay = false) (a b : Int64) :
    ((linksOf travel r).filter (·.1 = (a, b))).map (·.2) =
      ((linksOf travel r).filter (·.1 = (b, a))).map (·.2) := by
  have hthere : (r.target, r.source) = (b, a) ↔ (r.source, r.target) = (a, b) := by
    simp [and_comm]
  have hback : (r.source, r.target) = (b, a) ↔ (r.target, r.source) = (a, b) := by
    simp [and_comm]
  unfold linksOf
  simp only [h, Bool.false_eq_true, if_false, List.filter_cons, List.filter_nil, decide_eq_true_eq,
    hthere, hback]
  -- each order has one entry for each of the two conditions
  split_ifs <;> rfl

theorem LastWrites.linkOf_comm {travel : Travel α} {ps : List (Partition α π)} {g : Network α π}
    (h : LastWrites travel ps g) (htwo : ∀ p ∈ ps, NoOneWay p) (a b : Int64) :
    g.linkOf a b = g.linkOf b a := by
  have hrows : (((ps.flatMap (·.roads)).flatMap (linksOf travel)).filter (·.1 = (a, b))).map (·.2) =
      (((ps.flatMap (·.roads)).flatMap (linksOf travel)).filter (·.1 = (b, a))).map (·.2) := by
    simp only [List.filter_flatMap, List.map_flatMap]
    refine List.flatMap_congr fun r hr => ?_
    obtain ⟨p, hp, hr⟩ := List.mem_flatMap.1 hr
    exact map_linksOf_comm travel (htwo p hp r hr) a b
  rw [h.link, h.link, ← List.getLast?_map, ← List.getLast?_map, hrows]

/-- Requests that read no one-way road fill a network that leads back. -/
theorem twoWay_held [Quantity α] {available : CellSet} {travel : Travel α}
    {rs : List (Request ε α π)} (hroom : Roomy available travel rs)
    (htwo : ∀ r ∈ rs, ∀ c p, available.contains c → r.read c = .ok p → NoOneWay p) :
    (held available travel rs).network.TwoWay := by
  have hmade := (kept hroom).made
  have hrows : ∀ p ∈ loadOrder available rs, NoOneWay p := by
    intro p hp
    obtain ⟨r, hr, -, hlisted, hread⟩ := mem_loadOrder hp
    exact htwo r hr p.cell p hlisted hread
  exact (hmade.grown .empty).twoWay (hmade.lastWrites.linkOf_comm hrows)

/-- A dataset whose roads are open in both directions, and that may change on the disk between requests,
gives a network in which each edge has one against it that is like it. When the costs of the edges are
read as numbers that add up without rounding, the searches from one node to another and back find paths
of the same cost, or both find none. -/
theorem two_way_roads_lead_back (c : Catalog) (r : Speed.Replacements) (calls : List (Disk × CellSet))
    (hroom : Roomy c.cells (Speed.Profile.ofReplacements r).seconds (calls.map (requestTo c)))
    (htwo : ∀ call ∈ calls, ∀ cell part, c.cells.contains cell → c.read call.1 cell = .ok part →
      NoOneWay part) :
    let g := (held c.cells (Speed.Profile.ofReplacements r).seconds (calls.map (requestTo c))).network
    (∀ u v e, g.edge? u v = some e → g.edge? v u = some { e with target := u }) ∧
    ∀ (β : Type) [Quantity β] [OrderFreeCost β] (value : Float → β),
      (∀ x, 0 ≤ x → IsWeight (value x)) →
      ∀ (o : Objective) (u v : NodeId), u.index < g.nodeCount → v.index < g.nodeCount →
        (∃ f f', (g.valued value).plain u v o none = .ok f ∧
          (g.valued value).plain v u o none = .ok f' ∧ f.cost = f'.cost) ∨
        ((g.valued value).plain u v o none = .error .noPath ∧
          (g.valued value).plain v u o none = .error .noPath) := by
  intro g
  have hback : g.TwoWay := by
    refine twoWay_held hroom fun request hrequest cell part hcell hread => ?_
    obtain ⟨call, hcall, rfl⟩ := List.mem_map.1 hrequest
    exact htwo call hcall cell part hcell hread
  have hwell : g.WellFormed := ((kept hroom).made.grown .empty).wellFormed
  have hpassable : Passable g := passable_held r c calls
  refine ⟨hback, fun β _ _ value hvalue o u v hu hv => ?_⟩
  have hweighted : (g.valued value).Weighted o := by
    refine Network.weighted_valued fun w e he => hvalue _ ?_
    cases o with
    | time => exact (hpassable.edges w e he).travel
    | distance => exact (hpassable.edges w e he).length
  exact (hback.valued value).plain_agree (hwell.valued value) hweighted
    (hu.trans_eq Network.nodeCount_valued.symm) (hv.trans_eq Network.nodeCount_valued.symm)

namespace Pair
open Binary64 (bits infinityBits units)

/-- The road of the other partition from its other end, which is shorter, and a road that leads back to
where it begins. -/
def backPart : Partition Float Point :=
  ⟨east, [⟨2, ⟨0.25, 0.75⟩⟩],
    [⟨2, 1, 80.0, "service", none, false⟩, ⟨2, 2, 10.0, "service", none, false⟩]⟩

/-- How often the least positive float goes into a float without a minus sign. -/
noncomputable def inUnits (x : Float) : ENNReal :=
  if bits x < infinityBits then (units (bits x) : ENNReal) else ⊤

theorem two_way_roads_lead_back_pair :
    let calls := [(files westPart backPart, (∅ : CellSet).insert east),
      (files westPart backPart, catalog.cells)]
    let g := (held catalog.cells (Speed.Profile.ofReplacements ∅).seconds
      (calls.map (requestTo catalog))).network
    Roomy catalog.cells (Speed.Profile.ofReplacements ∅).seconds (calls.map (requestTo catalog)) ∧
    (∀ call ∈ calls, ∀ cell part, catalog.cells.contains cell → catalog.read call.1 cell = .ok part →
      NoOneWay part) ∧
    (∀ x, (0 : Float) ≤ x → IsWeight (inUnits x)) ∧
    (∀ u v e, g.edge? u v = some e → g.edge? v u = some { e with target := u }) ∧
    ∃ u v, u.index < g.nodeCount ∧ v.index < g.nodeCount ∧ g.lookup 1 = some u ∧ g.lookup 2 = some v ∧
      ((∃ f f', (g.valued inUnits).plain u v .distance none = .ok f ∧
        (g.valued inUnits).plain v u .distance none = .ok f' ∧ f.cost = f'.cost) ∨
      ((g.valued inUnits).plain u v .distance none = .error .noPath ∧
        (g.valued inUnits).plain v u .distance none = .error .noPath)) := by
  intro calls g
  have hwest : ∀ r ∈ westPart.roads, Dataset.isLength r.length := by decide +kernel
  have heast : ∀ r ∈ backPart.roads, Dataset.isLength r.length := by decide +kernel
  have hroom : Roomy catalog.cells (Speed.Profile.ofReplacements ∅).seconds
      (calls.map (requestTo catalog)) := by
    refine roomy_files rfl rfl hwest heast ?_ [(∅ : CellSet).insert east, catalog.cells]
    have hlength : ([westPart, backPart].flatMap
        (changesOf (Speed.Profile.ofReplacements ∅).seconds)).length = 9 := rfl
    rw [hlength]
    exact ⟨by decide, by decide⟩
  have htwo : ∀ call ∈ calls, ∀ cell part, catalog.cells.contains cell →
      catalog.read call.1 cell = .ok part → NoOneWay part := by
    intro call hcall cell part hcell hread
    have hdisk : call.1 = files westPart backPart := by
      rcases List.mem_pair.1 hcall with rfl | rfl <;> rfl
    rw [hdisk, read_of_listed rfl rfl hwest heast hcell] at hread
    cases hread
    unfold NoOneWay
    split
    · decide
    · decide
  have hweight : ∀ x, (0 : Float) ≤ x → IsWeight (inUnits x) := fun _ _ => Network.Exact.isWeight _
  have hlast : LastWrites (Speed.Profile.ofReplacements ∅).seconds [backPart, westPart] g := by
    have horder : loadOrder catalog.cells (calls.map (requestTo catalog)) = [backPart, westPart] :=
      loadOrder_east_first rfl rfl hwest heast
    exact horder ▸ (kept hroom).made.lastWrites
  have hone : (g.lookup 1).isSome := (hlast.known 1).2
    ⟨westPart, by simp, .inl ⟨_, List.mem_cons_self, rfl⟩⟩
  have htwoKnown : (g.lookup 2).isSome := (hlast.known 2).2
    ⟨backPart, by simp, .inl ⟨_, List.mem_cons_self, rfl⟩⟩
  obtain ⟨u, hu⟩ := Option.isSome_iff_exists.1 hone
  obtain ⟨v, hv⟩ := Option.isSome_iff_exists.1 htwoKnown
  have hiu := hlast.wellFormed.index_lt hu
  have hiv := hlast.wellFormed.index_lt hv
  obtain ⟨hback, hsearch⟩ := two_way_roads_lead_back catalog ∅ calls hroom htwo
  exact ⟨hroom, htwo, hweight, hback, u, v, hiu, hiv, hu, hv,
    hsearch ENNReal inUnits hweight .distance u v hiu hiv⟩

end Pair
end RoadRouting.Trip
