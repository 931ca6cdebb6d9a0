import RoadRouting.Proofs.Network.Guided
import RoadRouting.Proofs.Snap.Optimum
import RoadRouting.Proofs.Trip.LastWrites
import RoadRouting.Proofs.Trip.Runs

/-!
# What a route says

A route between two points is an answer about the network as it stands when the route is returned
(`Planner.route_faithful`): there is one exactly when the corridor has partitions, both ends are near
sampled nodes, and edges lead from one of these to the other. Its nodes, classes and sums are those
of such edges (`Describes`).
-/

namespace RoadRouting.Trip
set_option autoImplicit false
open Dataset (Catalog Partition)
open Grid (Cell CellSet)
open Network (Cost Edge ExactCost Finder Found LawfulCost Leads NodeId Quantity Shortest Walk Weighted
  visited total)
open Network.Cost (IsWeight IsSum)
open Snap (Hit)

variable {α : Type}

section Summary
variable {g : Network α Point} {u v : NodeId} {es : List (Edge α)}

theorem edgesAlong_snoc (vs : List NodeId) (v w : NodeId) :
    edgesAlong g (vs ++ [v] ++ [w]) = edgesAlong g (vs ++ [v]) ++ (g.edge? v w).toList := by
  induction vs with
  | nil =>
    simp only [List.nil_append, List.cons_append, edgesAlong]
    cases g.edge? v w <;> rfl
  | cons x rest ih =>
    cases rest with
    | nil =>
      simp only [List.nil_append, List.cons_append, edgesAlong]
      cases g.edge? x v <;> cases g.edge? v w <;> rfl
    | cons y rest =>
      simp only [List.cons_append, edgesAlong] at ih ⊢
      rw [ih]
      cases g.edge? x y <;> rfl

/-- The edges between the nodes of a walk are those of the walk. -/
theorem edgesAlong_visited (hg : g.WellFormed) (h : g.Walk u es v) :
    edgesAlong g (visited u es) = es := by
  induction h with
  | nil => rfl
  | @snoc es w e hw he ih =>
    obtain ⟨vs, hvs⟩ := List.getLast?_eq_some_iff.1 hw.getLast?_visited
    rw [Network.visited_snoc, hvs, edgesAlong_snoc, ← hvs, ih, hg.edge?_eq he]
    rfl

/-- Numbers that are in use name nodes, and the identifiers of these name the numbers. -/
theorem map_lookup_filterMap (hg : g.WellFormed) {vs : List NodeId}
    (hvs : ∀ x ∈ vs, x.index < g.nodeCount) : (vs.filterMap g.id?).map g.lookup = vs.map some := by
  induction vs with
  | nil => rfl
  | cons x rest ih =>
    obtain ⟨id, hid⟩ := hg.exists_lookup (hvs x List.mem_cons_self)
    rw [List.filterMap_cons_some ((hg.lookup_iff id x).1 hid), List.map_cons, List.map_cons, hid,
      ih fun y hy => hvs y (List.mem_cons_of_mem _ hy)]

end Summary

/-- What a route costs under an objective. -/
def Route.cost (r : Route α) : Objective → α
  | .time => r.travel
  | .distance => r.length

/-- A route tells of the edges from one node to another: the identifiers of the nodes from end to end,
each joined to the next by an edge, the names of the classes of the edges, and the sums of their
lengths and times, from the first edge to the last. Without estimates it is a cheapest one. -/
structure Describes [Cost α] (g : Network α Point) (objective : Objective) (start goal : Hit)
    (u v : NodeId) (es : List (Edge α)) (r : Route α) : Prop where
  walk : g.Walk u es v
  head : r.path.head? = some start.id
  last : r.path.getLast? = some goal.id
  linked : r.path.IsChain fun a b =>
    ∃ x y, g.lookup a = some x ∧ g.lookup b = some y ∧ (g.edge? x y).isSome
  nodes : r.path.map g.lookup = (visited u es).map some
  classes : r.classes = es.map fun e => g.className e.className
  count : r.classes.length + 1 = r.path.length
  length : r.length = es.foldl (fun sum e => sum + e.length) 0
  travel : r.travel = es.foldl (fun sum e => sum + e.travel) 0
  least : r.algorithm ≠ .guided → ∀ es', g.Walk u es' v → ¬ total objective es' < r.cost objective

section Search
variable [Quantity α] [LawfulCost α] {g : Network α Point} {u v : NodeId} {objective : Objective}

/-- The search for long trips is one of those that are there. -/
def IsStandard (finder : Finder α Point) : Prop :=
  finder = Network.plain ∨ ∃ distance topSpeed, finder = Network.guided distance topSpeed

theorem IsStandard.leads {finder : Finder α Point} (hf : IsStandard finder) (hg : g.WellFormed)
    (hw : g.Weighted objective) (hu : u.index < g.nodeCount) (hv : v.index < g.nodeCount) :
    Network.Answers g objective u v (Leads g objective u v) (finder g u v objective none) := by
  rcases hf with rfl | ⟨distance, topSpeed, rfl⟩
  · exact Network.Query.Sound.leads ⟨hg, hw, hu⟩ hv rfl
  · exact Network.guided_leads hg hw hu hv distance topSpeed

/-- What the search for a trip has to answer: what is found leads from one end to the other, by a
cheapest way unless estimates were used; nothing is found only if nothing leads there. -/
def Connects (g : Network α Point) (objective : Objective) (u v : NodeId) :
    Option (Found α × Algorithm) → Prop
  | some (f, algorithm) => Leads g objective u v f ∧
      (algorithm ≠ .guided → Shortest g objective u v f)
  | none => ∀ es, g.Walk u es v → ¬ total objective es < Cost.infinite

theorem searchPlainly_connects (hg : g.WellFormed) (hw : g.Weighted objective)
    (hu : u.index < g.nodeCount) (hv : v.index < g.nodeCount) (algorithm : Algorithm) :
    Connects g objective u v ((searchPlainly g u v objective none).1.map (·, algorithm)) := by
  have hplain := Network.plain_answers (v := v) hg hw hu hv
  unfold searchPlainly
  cases hr : g.plain u v objective none with
  | ok f =>
    rw [hr] at hplain
    exact ⟨hplain.leads, fun _ => hplain⟩
  | error fault =>
    rw [hr] at hplain
    obtain ⟨rfl, hnone⟩ := hplain
    exact hnone

theorem searchTrip_connects {settings : Settings} {finder : Finder α Point}
    (hlimit : settings.stepLimit = none) (hf : IsStandard finder) (hg : g.WellFormed)
    (hw : g.Weighted objective) (hu : u.index < g.nodeCount) (hv : v.index < g.nodeCount)
    (straight : Float) :
    Connects g objective u v (searchTrip settings finder g u v objective straight).1 := by
  have hguided := hf.leads hg hw hu hv
  unfold searchTrip
  rw [hlimit]
  by_cases hlong : settings.guidedAbove < straight
  · rw [if_pos hlong]
    cases hr : finder g u v objective none with
    | ok f =>
      rw [hr] at hguided
      exact ⟨hguided, fun h => absurd rfl h⟩
    | error fault => exact searchPlainly_connects hg hw hu hv .fallback
  · rw [if_neg hlong]
    exact searchPlainly_connects hg hw hu hv .plain

omit [LawfulCost α] in
/-- A route leads from the one end to the other. -/
theorem summarize_ends (hg : g.WellFormed) {start goal : Hit} (hstart : g.lookup start.id = some u)
    (hgoal : g.lookup goal.id = some v) {f : Found α} (h : Leads g objective u v f)
    (algorithm : Algorithm) :
    (summarize g f.path objective algorithm start goal).path.head? = some start.id ∧
      (summarize g f.path objective algorithm start goal).path.getLast? = some goal.id := by
  obtain ⟨es, hes, hpath, -⟩ := h
  constructor
  · simp only [summarize, hpath, visited]
    rw [List.filterMap_cons_some ((hg.lookup_iff _ _).1 hstart)]
    rfl
  · obtain ⟨vs, hvs⟩ := List.getLast?_eq_some_iff.1 hes.getLast?_visited
    simp only [summarize, hpath, hvs, List.filterMap_append, List.filterMap_cons,
      (hg.lookup_iff _ _).1 hgoal, List.filterMap_nil, List.getLast?_concat]

omit [LawfulCost α] in
/-- A route costs what the edges of its path add up to. -/
theorem cost_summarize (hg : g.WellFormed) {es : List (Edge α)} (hes : g.Walk u es v)
    (algorithm : Algorithm) (start goal : Hit) :
    (summarize g (visited u es) objective algorithm start goal).cost objective = total objective es := by
  have hedges := edgesAlong_visited hg hes
  cases objective <;> simp only [summarize, Route.cost, hedges] <;> rfl

omit [LawfulCost α] in
/-- The summary of a path describes its edges. -/
theorem summarize_describes (hg : g.WellFormed) {start goal : Hit}
    (hstart : g.lookup start.id = some u) (hgoal : g.lookup goal.id = some v) {f : Found α}
    {algorithm : Algorithm} (h : Connects g objective u v (some (f, algorithm))) :
    ∃ es, Describes g objective start goal u v es
      (summarize g f.path objective algorithm start goal) := by
  obtain ⟨hends, hleast⟩ := h
  obtain ⟨hhead, hlast⟩ := summarize_ends hg hstart hgoal hends algorithm
  obtain ⟨es, hes, hpath, -⟩ := hends
  have hindex := hes.index_lt hg (hg.index_lt hstart)
  have hnodes := map_lookup_filterMap hg hindex
  have hedges := edgesAlong_visited hg hes
  have hcost : (summarize g f.path objective algorithm start goal).cost objective =
      total objective es := by
    rw [hpath]
    exact cost_summarize hg hes algorithm start goal
  refine ⟨es, hes, hhead, hlast, ?_, ?_, ?_, ?_, ?_, ?_, ?_⟩
  · have hchain := hes.isChain hg
    have hsome : ((visited u es).map some).IsChain fun a b =>
        ∃ x y, a = some x ∧ b = some y ∧ (g.edge? x y).isSome := by
      rw [List.isChain_map]
      exact hchain.imp fun a b hab => ⟨a, b, rfl, rfl, hab⟩
    rw [← hnodes, List.isChain_map] at hsome
    simpa only [summarize, hpath] using hsome
  · simpa only [summarize, hpath] using hnodes
  · simp only [summarize, hpath, hedges]
  · have hlen := congrArg List.length hnodes
    simp only [List.length_map] at hlen
    simp only [summarize, hpath, hedges, List.length_map, hlen]
    simp only [visited, List.length_cons, List.length_map]
  · simp only [summarize, hpath, hedges]
  · simp only [summarize, hpath, hedges]
  · intro hne es' hes'
    obtain ⟨es₀, hes₀, hpath₀, hcost₀⟩ := (hleast hne).walk
    have hsame : es₀ = es := by
      rw [← edgesAlong_visited hg hes₀, ← hedges, ← hpath₀, hpath]
    rw [hcost, ← hsame, ← hcost₀]
    exact (hleast hne).least es' hes'

end Search

/-- The node of a hit is compared with the index when its position is known. -/
theorem loadedNode_eq (g : Network α Point) (hit : Hit) : loadedNode g hit =
    match g.positionOf hit.id with
    | none => .ok none
    | some q =>
      if q == hit.position then .ok (g.lookup hit.id) else .error (.disagreement hit.id hit.position q) := by
  unfold loadedNode Network.positionOf
  cases hv : g.lookup hit.id with
  | none => rfl
  | some v => rfl

theorem lookup_of_loadedNode {g : Network α Point} {hit : Hit} {v : NodeId}
    (h : loadedNode g hit = .ok (some v)) : g.lookup hit.id = some v := by
  rw [loadedNode_eq] at h
  split at h
  · cases h
  · split at h
    · exact Except.ok.inj h
    · cases h

theorem loadedNode_of_position {g : Network α Point} {hit : Hit} {q : Point}
    (hq : g.positionOf hit.id = some q) (heq : (q == hit.position) = true) :
    ∃ v, loadedNode g hit = .ok (some v) := by
  obtain ⟨v, hv, -⟩ := Option.bind_eq_some_iff.1 hq
  refine ⟨v, ?_⟩
  rw [loadedNode_eq, hq]
  simp only [heq, if_true, hv]

theorem positionOf_of_loadedNode {g : Network α Point} {hit : Hit} (h : loadedNode g hit = .ok none) :
    g.positionOf hit.id = none := by
  rw [loadedNode_eq] at h
  cases hq : g.positionOf hit.id with
  | none => rfl
  | some q =>
    obtain ⟨v, hv, -⟩ := Option.bind_eq_some_iff.1 hq
    simp only [hq, hv] at h
    split at h <;> cases h

namespace Planner
variable [Quantity α] {p p' : Planner α} {read : Reader α}

/-- A planner of which nothing has been asked. -/
structure Fresh (p : Planner α) : Prop where
  holding : p.holding = .empty
  memo : p.index.memo = ∅

theorem lookup_of_resolve {hit : Hit} {v : NodeId} (h : p.resolve read hit = (.ok v, p')) :
    p'.holding.network.lookup hit.id = some v := by
  have hres := p.resolve_resolved read hit
  rw [h] at hres
  cases hres with
  | found hf => exact lookup_of_loadedNode hf
  | foundLater _ hf => exact lookup_of_loadedNode hf

/-- What a planner that has been run knows: its network has grown, and its index remembers rightly. -/
theorem Run.sound {ok : Reader α → Prop} {p₀ : Planner α} (hf : p₀.Fresh) (h : Run ok p₀ p) :
    p.holding.network.Grown ∧ p.index.Remembers := by
  have hg : p₀.holding.network.Grown := by
    rw [hf.holding]
    exact .empty
  exact ⟨(h.moves.fills hg).grown, h.moves.remembers (.of_memo_empty hf.memo)⟩

/-- The answers of a planner are those that its index would give without a memory. -/
theorem Moves.nearest_eq {ok : Reader α → Prop} {p₁ p₂ : Planner α} (hr : p.index.Remembers)
    (m : Moves ok p p₁) {point : Point} {answer : Except Fault (Option Hit)}
    (h : p₁.nearest point p₁.settings.snapRadius = (answer, p₂)) :
    (p.index.snap point p.settings.snapRadius).mapError .breakdown = answer := by
  have hsnap := (m.remembers hr).nearest_eq point p₁.settings.snapRadius
  have hfst : (p₁.nearest point p₁.settings.snapRadius).1 = answer := by rw [h]
  rw [← hfst, ← m.same.index.snap, ← m.same.settings]
  exact congrArg _ hsnap.symm

theorem Moves.snap_eq_ok {ok : Reader α → Prop} {p₁ p₂ : Planner α} (hr : p.index.Remembers)
    (m : Moves ok p p₁) {point : Point} {answer : Option Hit}
    (h : p₁.nearest point p₁.settings.snapRadius = (.ok answer, p₂)) :
    p.index.snap point p.settings.snapRadius = .ok answer := by
  have hmapped := m.nearest_eq hr h
  cases hsnap : p.index.snap point p.settings.snapRadius with
  | ok answer' =>
    rw [hsnap] at hmapped
    cases hmapped
    rfl
  | error b =>
    rw [hsnap] at hmapped
    cases hmapped

/-- The ends of a route are the hits that the index gives. -/
theorem Snapped.snaps {origin destination : Point} {start goal : Hit} (hr : p.index.Remembers)
    (h : Snapped p read origin destination start goal p') :
    p.index.snap origin p.settings.snapRadius = .ok (some start) ∧
      p.index.snap destination p.settings.snapRadius = .ok (some goal) := by
  cases h with
  | intro _ h1 h2 h3 =>
    have m1 : Moves (fun _ => True) p _ := moves_of_ensure trivial h1
    exact ⟨m1.snap_eq_ok hr h2, (m1.trans (moves_of_nearest h2)).snap_eq_ok hr h3⟩

theorem Snapped.holding {report : Report} {p₁ : Planner α} {origin destination : Point}
    {start goal : Hit} (h : Snapped p read origin destination start goal p')
    (h1 : p.ensure read (p.corridor origin destination).available = (.ok report, p₁)) :
    p'.holding = p₁.holding := by
  cases h with
  | intro _ h1' h2 h3 =>
    rw [h1] at h1'
    cases h1'
    exact (congrArg (·.2.holding) h3).symm.trans (congrArg (·.2.holding) h2).symm

theorem resolve_of_loadedNode {hit : Hit} {v : NodeId} (read : Reader α)
    (h : loadedNode p.holding.network hit = .ok (some v)) : p.resolve read hit = (.ok v, p) := by
  unfold resolve
  simp only [h]

/-- What stands at the end of a search: both hits are nodes of the network as it is then. -/
theorem lookup_of_searched {start goal : Hit} {u v : NodeId} {p₃ p₄ p₅ : Planner α}
    (hg : p₃.holding.network.Grown) (h4 : p₃.resolve read start = (.ok u, p₄))
    (h5 : p₄.resolve read goal = (.ok v, p₅)) :
    p₅.holding.network.lookup start.id = some u ∧ p₅.holding.network.lookup goal.id = some v := by
  have m4 : Moves (fun _ => True) p₃ p₄ := moves_of_resolve trivial h4
  have m5 : Moves (fun _ => True) p₄ p₅ := moves_of_resolve trivial h5
  exact ⟨Network.lookup_updates (m5.fills (m4.fills hg).grown).updates (lookup_of_resolve h4),
    lookup_of_resolve h5⟩

/-- The nodes of a network that the ends of a route are moved to. -/
structure Ends (p : Planner α) (g : Network α Point) (origin destination : Point) (start goal : Hit)
    (u v : NodeId) : Prop where
  snapOrigin : p.index.snap origin p.settings.snapRadius = .ok (some start)
  snapDestination : p.index.snap destination p.settings.snapRadius = .ok (some goal)
  source : g.lookup start.id = some u
  target : g.lookup goal.id = some v

omit [Quantity α] in
theorem Ends.unique {g : Network α Point} {origin destination : Point} {start goal start' goal' : Hit}
    {u v u' v' : NodeId} (h : p.Ends g origin destination start goal u v)
    (h' : p.Ends g origin destination start' goal' u' v') : u = u' ∧ v = v' := by
  obtain rfl : start = start' :=
    Option.some.inj (Except.ok.inj (h.snapOrigin.symm.trans h'.snapOrigin))
  obtain rfl : goal = goal' :=
    Option.some.inj (Except.ok.inj (h.snapDestination.symm.trans h'.snapDestination))
  exact ⟨Option.some.inj (h.source.symm.trans h'.source),
    Option.some.inj (h.target.symm.trans h'.target)⟩

/-- There is a way between two points: the corridor has partitions, and a walk leads between the nodes
that the ends are moved to. -/
def HasWay (p : Planner α) (g : Network α Point) (origin destination : Point) : Prop :=
  (p.corridor origin destination).isEmpty = false ∧ ∃ start goal u v es,
    p.Ends g origin destination start goal u v ∧ g.Walk u es v

/-- What an answer has to be: a route exactly when there is a way, and one that describes a walk
between the nodes that the ends are moved to. -/
structure Truthful (p : Planner α) (g : Network α Point) (origin destination : Point)
    (objective : Objective) (answer : Option (Route α)) : Prop where
  complete : answer.isSome ↔ p.HasWay g origin destination
  faithful : ∀ r, answer = some r → ∃ start goal u v es,
    p.Ends g origin destination start goal u v ∧ Describes g objective start goal u v es r

theorem truthful_none {g : Network α Point} {origin destination : Point} {objective : Objective}
    (h : ¬ p.HasWay g origin destination) : p.Truthful g origin destination objective none where
  complete := by
    constructor
    · intro hsome
      cases hsome
    · intro hway
      exact absurd hway h
  faithful r hr := by cases hr

/-- The search between two nodes that are there gives a truthful answer. -/
theorem finish_truthful [ExactCost α] {p' : Planner α} {objective : Objective}
    {origin destination : Point} {start goal : Hit} {u v : NodeId} {warnings : List Warning}
    {answer : Option (Route α)} (hg : p'.holding.network.WellFormed) (hguided : IsStandard p'.guided)
    (hlimit : p'.settings.stepLimit = none)
    (hexact : ∀ v, ∀ e ∈ p'.holding.network.out v,
      IsWeight (e.cost objective) ∧ e.cost objective < Cost.infinite)
    (hcovered : (p.corridor origin destination).isEmpty = false)
    (hends : p.Ends p'.holding.network origin destination start goal u v)
    (hok : (p'.finish objective (p.corridor origin destination).straight start goal u v
      warnings).result = .ok answer) :
    p.Truthful p'.holding.network origin destination objective answer := by
  have hw : p'.holding.network.Weighted objective := fun v e he => (hexact v e he).1
  have hfin : ∀ v, ∀ e ∈ p'.holding.network.out v, e.cost objective < Cost.infinite :=
    fun v e he => (hexact v e he).2
  have hconnects := searchTrip_connects hlimit hguided hg hw (hg.index_lt hends.source)
    (hg.index_lt hends.target) (p.corridor origin destination).straight
  simp only [finish] at hok
  cases hfound : (searchTrip p'.settings p'.guided p'.holding.network u v objective
      (p.corridor origin destination).straight).1 with
  | none =>
    rw [hfound] at hok hconnects
    cases hok
    apply truthful_none
    rintro ⟨-, start', goal', u', v', es, hends', hes⟩
    obtain ⟨rfl, rfl⟩ := hends.unique hends'
    exact absurd (hes.total_lt_infinite hw hfin) (hconnects es hes)
  | some found =>
    obtain ⟨f, algorithm⟩ := found
    rw [hfound] at hok hconnects
    cases hok
    obtain ⟨es, hes⟩ := summarize_describes hg hends.source hends.target hconnects
    constructor
    · constructor
      · intro _
        exact ⟨hcovered, start, goal, u, v, es, hends, hes.walk⟩
      · intro _
        rfl
    · intro r hr
      cases hr
      exact ⟨start, goal, u, v, es, hends, hes⟩

/-- When the corridor can be loaded, the index does not break down, and the ends lie in place then, a
route is planned without a fault and without loading any more. -/
theorem route_ok {report : Report} {p₁ : Planner α} {origin destination : Point} (objective : Objective)
    (hr : p.index.Remembers) (hcovered : (p.corridor origin destination).isEmpty = false)
    (h1 : p.ensure read (p.corridor origin destination).available = (.ok report, p₁))
    (hsnap : ∀ point, ∃ answer, p.index.snap point p.settings.snapRadius = .ok answer)
    (hplaced : ∀ e ∈ p.index.entries, ∀ hit : Hit, hit.Of e → ∃ v,
      loadedNode p₁.holding.network hit = .ok (some v)) :
    ∃ answer, (p.route read origin destination objective).result = .ok answer ∧
      (p.route read origin destination objective).planner.holding = p₁.holding := by
  have m1 : Moves (fun _ => True) p p₁ := moves_of_ensure trivial h1
  have hnearest {q q' : Planner α} (m : Moves (fun _ => True) p q) {point : Point} {f : Fault} :
      q.nearest point q.settings.snapRadius ≠ (.error f, q') := by
    intro h
    have hmapped := m.nearest_eq hr h
    obtain ⟨answer, hanswer⟩ := hsnap point
    rw [hanswer] at hmapped
    cases hmapped
  have hfound {q q' : Planner α} (hq : q.holding = p₁.holding) {point : Point} {hit : Hit}
      (hhit : p.index.snap point p.settings.snapRadius = .ok (some hit)) {result : Except Fault NodeId}
      (h : q.resolve read hit = (result, q')) : (∃ v, result = .ok v) ∧ q'.holding = p₁.holding := by
    obtain ⟨e, he, hof⟩ := Snap.Index.snap_of hhit
    obtain ⟨v, hv⟩ := hplaced e he hit hof
    rw [← hq] at hv
    rw [resolve_of_loadedNode read hv] at h
    cases h
    exact ⟨⟨v, rfl⟩, hq⟩
  have hrouted := p.route_routed read origin destination objective
  generalize p.route read origin destination objective = reply at hrouted ⊢
  cases hrouted with
  | uncovered _ he =>
    rw [hcovered] at he
    cases he
  | unloaded _ h =>
    rw [h1] at h
    cases h
  | originBroken _ h h2 =>
    rw [h1] at h
    cases h
    exact absurd h2 (hnearest m1)
  | originFar _ h h2 =>
    rw [h1] at h
    cases h
    exact ⟨none, rfl, (congrArg (·.2.holding) h2).symm⟩
  | destinationBroken _ h h2 h3 =>
    rw [h1] at h
    cases h
    exact absurd h3 (hnearest (m1.trans (moves_of_nearest h2)))
  | destinationFar _ h h2 h3 =>
    rw [h1] at h
    cases h
    exact ⟨none, rfl, (congrArg (·.2.holding) h3).symm.trans (congrArg (·.2.holding) h2).symm⟩
  | originLost _ hs h4 =>
    obtain ⟨⟨v, hv⟩, -⟩ := hfound (hs.holding h1) (hs.snaps hr).1 h4
    cases hv
  | destinationLost _ hs h4 h5 =>
    obtain ⟨-, hheld⟩ := hfound (hs.holding h1) (hs.snaps hr).1 h4
    obtain ⟨⟨v, hv⟩, -⟩ := hfound hheld (hs.snaps hr).2 h5
    cases hv
  | searched _ hs h4 h5 =>
    obtain ⟨-, hheld⟩ := hfound (hs.holding h1) (hs.snaps hr).1 h4
    obtain ⟨-, hheld'⟩ := hfound hheld (hs.snaps hr).2 h5
    exact ⟨_, rfl, hheld'⟩

/-- A route is a faithful and complete answer about the network in which it was searched. -/
theorem route_faithful [ExactCost α] {p₀ : Planner α} (hfresh : p₀.Fresh)
    (hrun : Run (fun _ => True) p₀ p) (hguided : IsStandard p₀.guided)
    (hlimit : p₀.settings.stepLimit = none) {origin destination : Point} {objective : Objective}
    {reply : Reply α (Option (Route α))} (hreply : p.route read origin destination objective = reply)
    {answer : Option (Route α)} (hok : reply.result = .ok answer)
    (hexact : ∀ v, ∀ e ∈ reply.planner.holding.network.out v,
      IsWeight (e.cost objective) ∧ e.cost objective < Cost.infinite) :
    p.Truthful reply.planner.holding.network origin destination objective answer := by
  obtain ⟨hg, hr⟩ := hrun.sound hfresh
  have hrouted := p.route_routed read origin destination objective
  rw [hreply] at hrouted
  cases hrouted with
  | uncovered w he =>
    cases hok
    apply truthful_none
    rintro ⟨he', -⟩
    rw [he] at he'
    cases he'
  | unloaded w h1 | originBroken w h1 h2 | destinationBroken w h1 h2 h3 => cases hok
  | originFar w h1 h2 =>
    cases hok
    have m1 : Moves (fun _ => True) p _ := moves_of_ensure trivial h1
    apply truthful_none
    rintro ⟨-, start, goal, u, v, es, hends, -⟩
    have hnone := hends.snapOrigin
    rw [m1.snap_eq_ok hr h2] at hnone
    cases hnone
  | destinationFar w h1 h2 h3 =>
    cases hok
    have m1 : Moves (fun _ => True) p _ := moves_of_ensure trivial h1
    apply truthful_none
    rintro ⟨-, start, goal, u, v, es, hends, -⟩
    have hnone := hends.snapDestination
    rw [(m1.trans (moves_of_nearest h2)).snap_eq_ok hr h3] at hnone
    cases hnone
  | originLost w hs h4 => cases hok
  | destinationLost w hs h4 h5 => cases hok
  | @searched start goal u v p₃ p₄ p₅ w hs h4 h5 =>
    have m3 : Moves (fun _ => True) p p₃ := hs.moves trivial
    have m5 : Moves (fun _ => True) p₃ p₅ :=
      (moves_of_resolve trivial h4).trans (moves_of_resolve trivial h5)
    have hsame := (hrun.moves.trans (m3.trans m5)).same
    have hg3 := (m3.fills hg).grown
    obtain ⟨hsource, htarget⟩ := lookup_of_searched hg3 h4 h5
    obtain ⟨hstart, hgoal⟩ := hs.snaps hr
    exact finish_truthful (m5.fills hg3).grown.wellFormed (hsame.guided ▸ hguided)
      (hsame.settings ▸ hlimit) hexact hs.covered ⟨hstart, hgoal, hsource, htarget⟩ hok

end Planner

/-! ## Datasets of few partitions -/

/-- Reads partitions out of some. -/
def readFrom (parts : List (Partition α Point)) (cell : Cell) : Except Dataset.Fault (Partition α Point) :=
  match parts.find? (·.cell = cell) with
  | some part => .ok part
  | none => .error .noTable

section Few
variable {parts : List (Partition α Point)} {cell : Cell} {part : Partition α Point}

theorem mem_of_readFrom (h : readFrom parts cell = .ok part) : part ∈ parts ∧ part.cell = cell := by
  unfold readFrom at h
  split at h
  · rename_i hfound
    cases h
    exact ⟨List.mem_of_find?_eq_some hfound, by simpa using List.find?_some hfound⟩
  · cases h

theorem exists_readFrom (h : cell ∈ parts.map (·.cell)) : ∃ part, readFrom parts cell = .ok part := by
  obtain ⟨part, hpart, hcell⟩ := List.mem_map.1 h
  unfold readFrom
  cases hfound : parts.find? (·.cell = cell) with
  | some part' => exact ⟨part', rfl⟩
  | none =>
    have hnone := List.find?_eq_none.1 hfound part hpart
    simp [hcell] at hnone

/-- A request to such a dataset. -/
def requestFrom (parts : List (Partition α Point)) (keys : CellSet) :
    Request Dataset.Fault α Point where
  read := readFrom parts
  cells := keys
  labelled _ _ h := (mem_of_readFrom h).2

/-- A request for one partition brings it in. -/
theorem loadOrder_one {available : CellSet} (hlisted : cell ∈ available)
    (hread : readFrom parts cell = .ok part) :
    loadOrder available [requestFrom parts ((∅ : CellSet).insert cell)] = [part] := by
  have hkeys : (requestFrom parts ((∅ : CellSet).insert cell)).cells.toList = [cell] :=
    Pair.toList_one cell
  exact additions_of_one (by simp [missing, hkeys, hlisted]) hread

variable [Quantity α] {p₀ p : Planner α}

/-- A planner answers a request as its holding does. -/
theorem Planner.ensure_eq {rs : List (Request Dataset.Fault α Point)} (hs : p₀.Same p)
    (hheld : p.holding = held p₀.catalog.cells p₀.travel rs) (r : Request Dataset.Fault α Point) :
    p.ensure r.read r.cells = ((answer p₀.catalog.cells p₀.travel rs r).mapError Fault.ofLoad,
      { p with holding := held p₀.catalog.cells p₀.travel (rs ++ [r]) }) := by
  unfold Planner.ensure Planner.supply
  rw [hs.catalog, hs.travel, hheld, held_snoc]
  rfl

/-- Requests to a dataset with few rows, of which each cell has a partition, do not fail. -/
theorem Planner.ensure_few {rs : List (Request Dataset.Fault α Point)} (hs : p₀.Same p)
    (hheld : p.holding = held p₀.catalog.cells p₀.travel rs)
    (hparts : ∀ cell ∈ p₀.catalog.cells, cell ∈ parts.map (·.cell)) {keys : CellSet}
    (hroom : Roomy p₀.catalog.cells p₀.travel (rs ++ [requestFrom parts keys])) :
    ∃ report, p.ensure (readFrom parts) keys = (.ok report,
      { p with holding := held p₀.catalog.cells p₀.travel (rs ++ [requestFrom parts keys]) }) := by
  have hread : ∀ cell ∈ (held p₀.catalog.cells p₀.travel rs).pending p₀.catalog.cells keys,
      ∃ part, readFrom parts cell = .ok part :=
    fun cell hcell => exists_readFrom (hparts cell (Holding.mem_pending.1 hcell).2.1)
  obtain ⟨report, hreport⟩ := answer_ok (hroom rs _ (List.prefix_refl _)) hread
  have hensure := Planner.ensure_eq hs hheld (requestFrom parts keys)
  rw [hreport] at hensure
  exact ⟨report, hensure⟩

end Few

namespace Sole
open Pair (home homeCatalog)

/-- The only partition: two junctions, and a one-way road from the first to the second. -/
def partition : Partition ENNReal Point :=
  ⟨home, [⟨1, ⟨0.5, 0.5⟩⟩, ⟨2, ⟨0.25, 0.75⟩⟩], [⟨1, 2, 5, "road", none, true⟩]⟩

/-- The entries of both junctions. -/
def entries (first second : Cell) : List Snap.Entry :=
  [⟨1, ⟨0.5, 0.5⟩, first.raw⟩, ⟨2, ⟨0.25, 0.75⟩, second.raw⟩]

/-- The index of these entries, which compares one of them. -/
def indexOf (first second : Cell) : Snap.Index :=
  .ofPacked (entries first second) ⟨1, 0, 2, 0, 1, 0⟩ ⟨1, 10, 6⟩

/-- A planner of which nothing has been asked. -/
noncomputable def fresh : Planner ENNReal where
  settings := { Settings.standard with stepLimit := none }
  catalog := homeCatalog
  index := indexOf home home
  holding := .empty
  travel := fun _ _ _ => 3
  guided := Network.guided (fun _ _ => 0) 120

/-- The planner after a request for the cell. -/
noncomputable def stocked : Planner ENNReal := (fresh.ensure (readFrom [partition]) homeCatalog.cells).2

theorem isFinite_entries (first second : Cell) : ∀ e ∈ entries first second,
    e.position.lat.isFinite = true ∧ e.position.lon.isFinite = true := by
  have hfirst : (0.5 : Float).isFinite = true ∧ (0.5 : Float).isFinite = true := by decide +kernel
  have hsecond : (0.25 : Float).isFinite = true ∧ (0.75 : Float).isFinite = true := by decide +kernel
  intro e he
  rcases List.mem_pair.1 he with rfl | rfl
  · exact hfirst
  · exact hsecond

theorem exists_snap (first second : Cell) (p : Point) (radius : Float) :
    ∃ answer, (indexOf first second).snap p radius = .ok answer :=
  Snap.Index.exists_snap p radius (by decide : 6 ≤ 9) (isFinite_entries first second)

/-- The only candidate for a query is the junction that is nearer. -/
theorem of_snap {first second : Cell} {p : Point} {radius : Float} {near far : Snap.Entry} {hit : Hit}
    (hperm : [near, far].Perm (entries first second))
    (hnearer : Network.floatRank
      (Snap.sqDegrees near.position ((Snap.Question.of ⟨1, 10, 6⟩ p 0.0).point ⟨1, 10, 6⟩))
      (Snap.sqDegrees far.position ((Snap.Question.of ⟨1, 10, 6⟩ p 0.0).point ⟨1, 10, 6⟩)) = .lt)
    (h : (indexOf first second).snap p radius = .ok (some hit)) : hit.Of near := by
  have hsearchable : Snap.isSearchable (entries first second) ((indexOf first second).rounded p) = true :=
    Snap.Index.isSearchable_point (by decide : 6 ≤ 9) (isFinite_entries first second) _
  have hcut : Snap.IsCut (indexOf first second).entries (indexOf first second).options.candidates
      ((indexOf first second).rounded p) [near] [far] := by
    refine ⟨hsearchable, hperm, rfl, fun a ha b hb => ?_⟩
    rw [List.mem_singleton.1 ha, List.mem_singleton.1 hb]
    exact hnearer
  obtain ⟨e, he, hof⟩ := Snap.Index.exists_near_of_snap hcut h
  rwa [List.mem_singleton.1 he] at hof

/-- Each end is moved to the junction at its coordinates, if it is moved at all. -/
theorem ends_of_snap {first second : Cell} {radius : Float} {start goal : Hit}
    (hstart : (indexOf first second).snap ⟨0.5, 0.5⟩ radius = .ok (some start))
    (hgoal : (indexOf first second).snap ⟨0.25, 0.75⟩ radius = .ok (some goal)) :
    start.Of ⟨1, ⟨0.5, 0.5⟩, first.raw⟩ ∧ goal.Of ⟨2, ⟨0.25, 0.75⟩, second.raw⟩ := by
  have hfirst : Network.floatRank
      (Snap.sqDegrees ⟨0.5, 0.5⟩ ((Snap.Question.of ⟨1, 10, 6⟩ ⟨0.5, 0.5⟩ 0.0).point ⟨1, 10, 6⟩))
      (Snap.sqDegrees ⟨0.25, 0.75⟩ ((Snap.Question.of ⟨1, 10, 6⟩ ⟨0.5, 0.5⟩ 0.0).point ⟨1, 10, 6⟩)) = .lt := by
    decide +kernel
  have hsecond : Network.floatRank
      (Snap.sqDegrees ⟨0.25, 0.75⟩ ((Snap.Question.of ⟨1, 10, 6⟩ ⟨0.25, 0.75⟩ 0.0).point ⟨1, 10, 6⟩))
      (Snap.sqDegrees ⟨0.5, 0.5⟩ ((Snap.Question.of ⟨1, 10, 6⟩ ⟨0.25, 0.75⟩ 0.0).point ⟨1, 10, 6⟩)) = .lt := by
    decide +kernel
  exact ⟨of_snap (.refl _) hfirst hstart, of_snap (.swap _ _ _) hsecond hgoal⟩

/-- Both entries lie where the index has them. -/
theorem loadedNode_of_entry {g : Network ENNReal Point} (hfirst : g.positionOf 1 = some ⟨0.5, 0.5⟩)
    (hsecond : g.positionOf 2 = some ⟨0.25, 0.75⟩) {first second : Cell} {e : Snap.Entry}
    (he : e ∈ entries first second) {hit : Hit} (hof : hit.Of e) :
    ∃ v, loadedNode g hit = .ok (some v) := by
  have hself : ((⟨0.5, 0.5⟩ : Point) == ⟨0.5, 0.5⟩) = true ∧
      ((⟨0.25, 0.75⟩ : Point) == ⟨0.25, 0.75⟩) = true := by decide +kernel
  rcases List.mem_pair.1 he with rfl | rfl
  · rw [← show hit.id = 1 from hof.id] at hfirst
    exact loadedNode_of_position hfirst (by rw [hof.position]; exact hself.1)
  · rw [← show hit.id = 2 from hof.id] at hsecond
    exact loadedNode_of_position hsecond (by rw [hof.position]; exact hself.2)

/-- Nothing but the partition comes in, and it comes in with the first request. -/
theorem loadOrder_stocked (keys : CellSet) : loadOrder homeCatalog.cells
    [requestFrom [partition] homeCatalog.cells, requestFrom [partition] keys] = [partition] := by
  have hkeys : (requestFrom [partition] homeCatalog.cells).cells.toList = [home] := Pair.toList_one home
  have hread : readFrom [partition] home = .ok partition := by
    simp [readFrom, partition]
  have hfirst : additions homeCatalog.cells [] (requestFrom [partition] homeCatalog.cells) = [partition] :=
    additions_of_one (by simp [missing, hkeys, Pair.mem_home]) hread
  have hsecond : additions homeCatalog.cells [partition] (requestFrom [partition] keys) = [] := by
    have hmissing : missing homeCatalog.cells [partition] (requestFrom [partition] keys) = [] := by
      apply List.filter_eq_nil_iff.2
      intro cell _
      simp [Pair.mem_home, partition]
    unfold additions
    rw [hmissing]
    rfl
  show [] ++ additions homeCatalog.cells [] (requestFrom [partition] homeCatalog.cells) ++
    additions homeCatalog.cells ([] ++ additions homeCatalog.cells [] (requestFrom [partition] homeCatalog.cells))
      (requestFrom [partition] keys) = [partition]
  rw [List.nil_append, hfirst, hsecond, List.append_nil]

/-- Any request succeeds then, and what is loaded says what the rows of the partition say. -/
theorem ensure_stocked (keys : CellSet) : ∃ report p, stocked.ensure (readFrom [partition]) keys =
    (.ok report, p) ∧ LastWrites fresh.travel [partition] p.holding.network := by
  have hroom : Roomy homeCatalog.cells fresh.travel
      [requestFrom [partition] homeCatalog.cells, requestFrom [partition] keys] := by
    refine roomy_of_few [partition] (fun r hr cell part _ hread => ?_) ?_
    · rcases List.mem_pair.1 hr with rfl | rfl <;> exact (mem_of_readFrom hread).1
    · have hlength : ([partition].flatMap (changesOf fresh.travel)).length = 3 := rfl
      rw [hlength]
      exact ⟨by decide, by decide⟩
  have hsame : fresh.Same stocked := ⟨rfl, rfl, rfl, rfl, rfl, rfl⟩
  have hparts : ∀ cell ∈ homeCatalog.cells, cell ∈ [partition].map (·.cell) :=
    fun cell hcell => List.mem_singleton.2 (Pair.mem_home.1 hcell)
  have hheld : stocked.holding = held homeCatalog.cells fresh.travel
      [requestFrom [partition] homeCatalog.cells] := rfl
  obtain ⟨report, hensure⟩ := Planner.ensure_few hsame hheld hparts hroom
  have hmade := (kept hroom).made.lastWrites
  rw [loadOrder_stocked] at hmade
  exact ⟨report, _, hensure, hmade⟩

theorem route_faithful_stocked :
    ∃ reply answer, stocked.route (readFrom [partition]) ⟨0.5, 0.5⟩ ⟨0.25, 0.75⟩ .time = reply ∧
    (fresh.Fresh ∧ Planner.Run (fun _ => True) fresh stocked ∧ IsStandard fresh.guided ∧
      fresh.settings.stepLimit = none ∧ reply.result = .ok answer ∧
      ∀ v, ∀ e ∈ reply.planner.holding.network.out v,
        IsWeight (e.cost .time) ∧ e.cost .time < Cost.infinite) ∧
    stocked.Truthful reply.planner.holding.network ⟨0.5, 0.5⟩ ⟨0.25, 0.75⟩ .time answer ∧
    -- the ends are moved whenever their distances from the junctions allow it
    ((∃ start goal, stocked.index.snap ⟨0.5, 0.5⟩ stocked.settings.snapRadius = .ok (some start) ∧
      stocked.index.snap ⟨0.25, 0.75⟩ stocked.settings.snapRadius = .ok (some goal)) →
      answer.isSome) := by
  have hfresh : fresh.Fresh := ⟨rfl, rfl⟩
  have hrun : Planner.Run (fun _ => True) fresh stocked := .ensure _ _ trivial .start
  have hguided : IsStandard fresh.guided := .inr ⟨_, _, rfl⟩
  have hlimit : fresh.settings.stepLimit = none := rfl
  have hcovered : (stocked.corridor ⟨0.5, 0.5⟩ ⟨0.25, 0.75⟩).isEmpty = false :=
    Std.TreeSet.isEmpty_eq_false_of_contains (stocked.contains_corridor (by decide +kernel)
      (by decide +kernel) Pair.containing_home (Pair.mem_home.2 rfl))
  obtain ⟨report, p, hensure, hg⟩ := ensure_stocked (stocked.corridor ⟨0.5, 0.5⟩ ⟨0.25, 0.75⟩).available
  obtain ⟨answer, hok, hholding⟩ := Planner.route_ok .time (hrun.sound hfresh).2 hcovered
    hensure (fun point => exists_snap home home point _)
    fun _ he _ hof => loadedNode_of_entry ((hg.position 1).trans rfl) ((hg.position 2).trans rfl) he hof
  generalize hreply : stocked.route (readFrom [partition]) ⟨0.5, 0.5⟩ ⟨0.25, 0.75⟩ .time = reply at hok hholding
  rw [← hholding] at hg
  have hexact : ∀ v, ∀ e ∈ reply.planner.holding.network.out v,
      IsWeight (e.cost .time) ∧ e.cost .time < Cost.infinite := by
    intro v e he
    obtain ⟨part, hpart, r, -, hcost⟩ := hg.exists_road he
    refine ⟨Network.Exact.isWeight _, ?_⟩
    rw [hcost]
    exact ENNReal.ofNat_lt_top
  have htruthful := Planner.route_faithful hfresh hrun hguided hlimit hreply hok hexact
  refine ⟨reply, answer, rfl, ⟨hfresh, hrun, hguided, hlimit, hok, hexact⟩, htruthful, ?_⟩
  rintro ⟨start, goal, hstart, hgoal⟩
  obtain ⟨hfirst, hsecond⟩ := ends_of_snap hstart hgoal
  obtain ⟨u, e, hu, he, hv, -⟩ := Network.exists_edge_of_linkOf ((hg.link 1 2).trans rfl)
  exact htruthful.complete.2 ⟨hcovered, start, goal, u, e.target, [e],
    ⟨hstart, hgoal, hfirst.id ▸ hu, hsecond.id ▸ hv⟩, .snoc .nil he⟩

end Sole
end RoadRouting.Trip
