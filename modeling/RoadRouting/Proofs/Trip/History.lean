import RoadRouting.Proofs.Trip.Steady

/-!
# What was asked before

Whatever has been asked of a planner, a route that it would have found at first is found again, between
the same nodes and at no greater cost (`Planner.history_helps`). For the planner that was asked has
loaded what the untouched one loads on its way, step by step: a request that can be met at first can be
met later (`Ahead.ensure`), the ends are moved to the same nodes (`Ahead.snapped`), and an end that is
found at first is found later, even if no partition has to be loaded for it any more (`Ahead.resolve`).
-/

namespace RoadRouting.Trip
set_option autoImplicit false
open Dataset (Partition)
open Grid (Cell CellSet)
open Network (Finder Found LawfulCost NodeId Quantity Shortest Within)
open Network.Cost (IsWeight)
open Snap (Hit)

variable {α : Type} [Quantity α]

/-- A route that was found before is found afterwards, between the same nodes and at no greater cost,
unless the network is full then. -/
def NoWorse (objective : Objective) (before after : Except Fault (Option (Route α))) : Prop :=
  ¬ IsFull after → ∀ r, before = .ok (some r) → ∃ r', after = .ok (some r') ∧
    r'.path.head? = r.path.head? ∧ r'.path.getLast? = r.path.getLast? ∧
    (r'.cost objective < r.cost objective ∨ r'.cost objective = r.cost objective)

omit [Quantity α] in
theorem Confirms.within {g g' : Network α Point} {hit : Hit} (h : Confirms g hit) (hw : Within g g') :
    Confirms g' hit := by
  obtain ⟨position, hpos, heq⟩ := h
  exact ⟨position, hw.position _ _ hpos, heq⟩

/-- A short trip is searched without estimates. -/
theorem searchTrip_short {settings : Settings} {straight : Float}
    (h : ¬ settings.guidedAbove < straight) (finder : Finder α Point) (g : Network α Point)
    (u v : NodeId) (objective : Objective) :
    (searchTrip settings finder g u v objective straight).1 =
      (searchPlainly g u v objective settings.stepLimit).1.map (·, .plain) := by
  unfold searchTrip
  rw [if_neg h]

/-- The route along a path of least cost costs as much. -/
theorem cost_summarize_of_shortest {g : Network α Point} {objective : Objective} {u v : NodeId}
    {f : Found α} (hg : g.WellFormed) (h : Shortest g objective u v f) (algorithm : Algorithm)
    (start goal : Hit) :
    (summarize g f.path objective algorithm start goal).cost objective = f.cost := by
  obtain ⟨es, hes, hpath, hcost⟩ := h.walk
  rw [hpath, cost_summarize hg hes, hcost]

namespace Planner
variable {p₀ p p' q q' : Planner α} {read r : Reader α} {hit start goal : Hit}
  {origin destination : Point} {objective : Objective}

/-- All that was asked of a planner, with readers that follow one dataset, while its network was never
full. What fails for another reason counts as well. -/
inductive History (read : Reader α) (p₀ : Planner α) : Planner α → Prop
  | start : History read p₀ p₀
  | ensure {p : Planner α} (r : Reader α) (keys : CellSet) : Follows read r →
      ¬ IsFull (p.ensure r keys).1 → History read p₀ p → History read p₀ (p.ensure r keys).2
  | nearest {p : Planner α} (point : Point) (radius : Float) : History read p₀ p →
      History read p₀ (p.nearest point radius).2
  | route {p : Planner α} (r : Reader α) (origin destination : Point) (objective : Objective) :
      Follows read r → ¬ IsFull (p.route r origin destination objective).result →
      History read p₀ p → History read p₀ (p.route r origin destination objective).planner

/-! ## Histories keep a planner steady -/

namespace Steady

theorem grown (hf : p₀.Fresh) (h : p₀.Steady read p) : p.holding.network.Grown := by
  have hg : p₀.holding.network.Grown := by
    rw [hf.holding]
    exact .empty
  exact (h.moves.fills hg).grown

theorem snap (hf : p₀.Fresh) (h : p₀.Steady read p) {point : Point} {answer : Option Hit}
    (hn : p.nearest point p.settings.snapRadius = (.ok answer, p')) :
    p₀.index.snap point p₀.settings.snapRadius = .ok answer :=
  h.moves.snap_eq_ok (.of_memo_empty hf.memo) hn

/-- Where the index gives an answer no planner that came from it breaks down. -/
theorem nearest_ne_error (hf : p₀.Fresh) (h : p₀.Steady read p) {point : Point} {answer : Option Hit}
    (hsnap : p₀.index.snap point p₀.settings.snapRadius = .ok answer) {f : Fault} :
    p.nearest point p.settings.snapRadius ≠ (.error f, p') := by
  intro hn
  have hmapped := h.moves.nearest_eq (.of_memo_empty hf.memo) hn
  rw [hsnap] at hmapped
  cases hmapped

theorem resolve (hd : Divided p₀.catalog read) (h : p₀.Steady read p) (hr : Follows read r)
    {result : Except Fault NodeId} (hp : p.resolve r hit = (result, p')) (hroom : ¬ IsFull result) :
    p₀.Steady read p' := by
  have hres := p.resolve_resolved r hit
  rw [hp] at hres
  cases hres with
  | found _ | elsewhere _ | foreign _ => exact h
  | unloaded he => exact (h.ensure hd hr he fun hfull => hroom hfull.of_error).1
  | foundLater he _ | elsewhereLater he _ | absent he _ =>
    exact (h.ensure hd hr he (not_isFull_ok _)).1

theorem snapped (hd : Divided p₀.catalog read) (h : p₀.Steady read p) (hr : Follows read r)
    (hs : Snapped p r origin destination start goal p') : p₀.Steady read p' := by
  cases hs with
  | intro _ h1 h2 h3 =>
    have hloaded := (h.ensure hd hr h1 (not_isFull_ok _)).1
    exact ((hloaded.nearest h2).1.nearest h3).1

/-- So does the planning of a route. -/
theorem route (hd : Divided p₀.catalog read) (h : p₀.Steady read p) (hr : Follows read r)
    (hroom : ¬ IsFull (p.route r origin destination objective).result) :
    p₀.Steady read (p.route r origin destination objective).planner := by
  have hrouted := p.route_routed r origin destination objective
  generalize p.route r origin destination objective = reply at hrouted hroom ⊢
  cases hrouted with
  | uncovered _ _ => exact h
  | unloaded _ h1 => exact (h.ensure hd hr h1 fun hfull => hroom hfull.of_error).1
  | originBroken _ h1 h2 | originFar _ h1 h2 =>
    exact ((h.ensure hd hr h1 (not_isFull_ok _)).1.nearest h2).1
  | destinationBroken _ h1 h2 h3 | destinationFar _ h1 h2 h3 =>
    exact (((h.ensure hd hr h1 (not_isFull_ok _)).1.nearest h2).1.nearest h3).1
  | originLost _ hs h4 =>
    exact (h.snapped hd hr hs).resolve hd hr h4 fun hfull => hroom hfull.of_error
  | destinationLost _ hs h4 h5 =>
    have hfirst := (h.snapped hd hr hs).resolve hd hr h4 (not_isFull_ok _)
    exact hfirst.resolve hd hr h5 fun hfull => hroom hfull.of_error
  | searched _ hs h4 h5 =>
    have hfirst := (h.snapped hd hr hs).resolve hd hr h4 (not_isFull_ok _)
    exact hfirst.resolve hd hr h5 (not_isFull_ok _)

end Steady

theorem History.steady (hd : Divided p₀.catalog read) (hf : p₀.Fresh) (h : History read p₀ p) :
    p₀.Steady read p := by
  induction h with
  | start => exact .start hf
  | ensure r keys hr hroom _ ih => exact (ih.ensure hd hr rfl hroom).1
  | nearest point radius _ ih => exact (ih.nearest rfl).1
  | route r origin destination objective hr hroom _ ih => exact ih.route hd hr hroom

omit [Quantity α] in
theorem Same.corridor (h : p₀.Same p) (origin destination : Point) :
    p.corridor origin destination = p₀.corridor origin destination := by
  unfold Planner.corridor
  rw [h.catalog, h.settings]

namespace Ahead

/-- The corridor between two points can be loaded by the one ahead if it can by the other one. -/
theorem ensure_corridor (hd : Divided p₀.catalog read) (h : p₀.Ahead read p q) {report : Report}
    {result : Except Fault Report}
    (hp : p.ensure read (p.corridor origin destination).available = (.ok report, p'))
    (hq : q.ensure read (q.corridor origin destination).available = (result, q'))
    (hroom : ¬ IsFull result) : (∃ report', result = .ok report') ∧ p₀.Ahead read p' q' := by
  rw [h.behind.moves.same.corridor] at hp
  rw [h.steady.moves.same.corridor] at hq
  exact h.ensure hd hp hq hroom

/-- Both find the same for a point. -/
theorem nearest_eq (hf : p₀.Fresh) (h : p₀.Ahead read p q) {point : Point} {found found' : Option Hit}
    (hp : p.nearest point p.settings.snapRadius = (.ok found, p'))
    (hq : q.nearest point q.settings.snapRadius = (.ok found', q')) : found' = found :=
  Except.ok.inj ((h.steady.snap hf hq).symm.trans (h.behind.snap hf hp))

/-- The ends of a route are moved to the same nodes. -/
theorem snapped (hd : Divided p₀.catalog read) (hf : p₀.Fresh) (h : p₀.Ahead read p q)
    {start' goal' : Hit} (hs : Snapped p read origin destination start goal p')
    (hs' : Snapped q read origin destination start' goal' q') :
    start' = start ∧ goal' = goal ∧ p₀.Ahead read p' q' := by
  cases hs with
  | intro _ h1 h2 h3 =>
    cases hs' with
    | intro _ h1' h2' h3' =>
      obtain ⟨-, hloaded⟩ := h.ensure_corridor hd h1 h1' (not_isFull_ok _)
      have hmoved := hloaded.nearest h2 h2'
      cases hloaded.nearest_eq hf h2 h2'
      cases hmoved.nearest_eq hf h3 h3'
      exact ⟨rfl, rfl, hmoved.nearest h3 h3'⟩

/-- Where the position of an end is known already, all is loaded that has to be loaded to find it. -/
theorem resolve_known (hd : Divided p₀.catalog read) (h : p₀.Ahead read p q) {u : NodeId}
    (hp : p.resolve read hit = (.ok u, p')) (hknown : (q.holding.network.positionOf hit.id).isSome) :
    p₀.Ahead read p' q := by
  obtain ⟨hnode, rfl | ⟨hnone, -, report, he⟩⟩ := resolve_ok_cases hp
  · exact h
  · obtain ⟨hsteady, hsupplied⟩ := h.behind.ensure hd (.refl read) he (not_isFull_ok report)
    obtain ⟨ps, hps⟩ := h.behind.comprises
    obtain ⟨ps', hps'⟩ := hsteady.comprises
    obtain ⟨qs, hqs⟩ := h.steady.comprises
    -- The row that gave the position came with the cell of the hit, and it has no other partition.
    obtain ⟨position, hpos, -⟩ := confirms_of_loadedNode hnode
    obtain ⟨part, hpart, hl, j, hj, hjid⟩ := (hps'.placed hit.id).1 (by rw [hpos]; rfl)
    have hnew : ¬ p.Loaded part.cell := by
      intro hold
      have hplaced := (hps.placed hit.id).2 ⟨part, hpart, hold, j, hj, hjid⟩
      rw [hnone] at hplaced
      cases hplaced
    have hcell : part.cell = hit.cell := eq_of_contains_one ((hsupplied.only _ hl).resolve_left hnew)
    obtain ⟨part', hpart', hl', k, hk, hkid⟩ := (hqs.placed hit.id).1 hknown
    have hsame : part.cell = part'.cell := by
      by_contra hne
      exact hd.apart.junctions part part' hpart hpart' hne j hj k hk (hjid.trans hkid.symm)
    refine ⟨hsteady, h.steady, fun cell hloaded => ?_⟩
    rcases hsupplied.only cell hloaded with hold | hkey
    · exact h.loaded cell hold
    · rw [eq_of_contains_one hkey, ← hcell, hsame]
      exact hl'

/-- An end that is found by the planner behind is found by the one ahead, which stays ahead. -/
theorem resolve (hd : Divided p₀.catalog read) (h : p₀.Ahead read p q) {u : NodeId}
    {result : Except Fault NodeId} (hp : p.resolve read hit = (.ok u, p'))
    (hq : q.resolve read hit = (result, q')) (hroom : ¬ IsFull result) :
    (∃ v, result = .ok v) ∧ p₀.Ahead read p' q' := by
  obtain ⟨hnode, hcase⟩ := resolve_ok_cases hp
  have hthere := confirms_of_loadedNode hnode
  cases hposition : q.holding.network.positionOf hit.id with
  | some position =>
    have ha := h.resolve_known hd hp (by rw [hposition]; rfl)
    obtain ⟨v, hv⟩ := resolve_of_confirms read (hthere.within (ha.within hd))
    rw [hq] at hv
    cases hv
    exact ⟨⟨v, rfl⟩, ha⟩
  | none =>
    rcases hcase with rfl | ⟨-, hlisted, report, he⟩
    · obtain ⟨position, hpos, -⟩ := hthere.within (h.within hd)
      rw [hposition] at hpos
      cases hpos
    · rw [h.behind.moves.same.catalog, ← h.steady.moves.same.catalog] at hlisted
      rcases he' : q.ensure read ((∅ : CellSet).insert hit.cell) with ⟨result₁, q₁⟩
      have hroom₁ : ¬ IsFull result₁ := by
        rintro ⟨e, rfl⟩
        rw [resolve_of_unloaded hposition hlisted he'] at hq
        cases hq
        exact hroom ⟨e, rfl⟩
      obtain ⟨⟨report', rfl⟩, ha⟩ := h.ensure hd he he' hroom₁
      obtain ⟨v, hv⟩ := resolve_of_ensure hposition hlisted he' (hthere.within (ha.within hd))
      rw [hq] at hv
      cases hv
      exact ⟨⟨v, rfl⟩, ha⟩

end Ahead

/-! ## The search -/

section Search
variable [LawfulCost α] {straight : Float} {u v u' v' : NodeId}

attribute [local instance] LawfulCost.order

/-- What a short trip has for an answer is what the search without estimates finds. -/
theorem finish_connects (hlimit : p.settings.stepLimit = none)
    (hshort : ¬ p.settings.guidedAbove < straight) (hg : p.holding.network.WellFormed)
    (hw : p.holding.network.Weighted objective) (hu : p.holding.network.lookup start.id = some u)
    (hv : p.holding.network.lookup goal.id = some v) (warnings : List Warning) :
    ∃ found : Option (Found α),
      (p.finish objective straight start goal u v warnings).result = .ok (found.map fun f =>
        summarize p.holding.network f.path objective .plain start goal) ∧
      Connects p.holding.network objective u v (found.map (·, .plain)) := by
  refine ⟨(searchPlainly p.holding.network u v objective none).1, ?_,
    searchPlainly_connects hg hw (hg.index_lt hu) (hg.index_lt hv) .plain⟩
  have hsearch := searchTrip_short hshort p.guided p.holding.network u v objective
  rw [hlimit] at hsearch
  unfold finish
  simp only [hsearch, Option.map_map, Function.comp_def]

/-- The planner that is ahead finds what the other one finds, or something cheaper. -/
theorem Ahead.finish (hd : Divided p₀.catalog read) (h : p₀.Ahead read p q)
    (hlimit : p₀.settings.stepLimit = none) (hshort : ¬ p₀.settings.guidedAbove < straight)
    (hroads : ∀ part, Offers p₀.catalog read part →
      ∀ r ∈ part.roads, IsWeight (roadCost p₀.travel objective r))
    (hu : p.holding.network.lookup start.id = some u) (hv : p.holding.network.lookup goal.id = some v)
    (hu' : q.holding.network.lookup start.id = some u')
    (hv' : q.holding.network.lookup goal.id = some v') (warnings warnings' : List Warning) :
    NoWorse objective (p.finish objective straight start goal u v warnings).result
      (q.finish objective straight start goal u' v' warnings').result := by
  obtain ⟨ps, hps⟩ := h.behind.comprises
  obtain ⟨qs, hqs⟩ := h.steady.comprises
  have hg := hps.writes.wellFormed
  have hg' := hqs.writes.wellFormed
  have hw' := hqs.weighted hroads
  have hsettings := h.behind.moves.same.settings
  have hsettings' := h.steady.moves.same.settings
  obtain ⟨found, hresult, hconnects⟩ := finish_connects (hsettings ▸ hlimit) (hsettings ▸ hshort)
    hg (hps.weighted hroads) hu hv warnings
  obtain ⟨found', hresult', hconnects'⟩ := finish_connects (hsettings' ▸ hlimit)
    (hsettings' ▸ hshort) hg' hw' hu' hv' warnings'
  rintro - r hr
  rw [hresult] at hr
  cases found with
  | none => cases hr
  | some f =>
    cases hr
    have hf : Shortest p.holding.network objective u v f := hconnects.2 nofun
    obtain ⟨es, hes, -, hcost⟩ := hf.walk
    obtain ⟨es', hes', htotal⟩ := (h.within hd).exists_walk hg hes hu hv hu' hv'
    have hsame : f.cost = Network.total objective es' := hcost.trans (htotal objective).symm
    cases found' with
    | none => exact absurd (hsame ▸ hf.finite) (hconnects' es' hes')
    | some f' =>
      have hf' : Shortest q.holding.network objective u' v' f' := hconnects'.2 nofun
      obtain ⟨hhead, hlast⟩ := summarize_ends hg hu hv hf.leads .plain
      obtain ⟨hhead', hlast'⟩ := summarize_ends hg' hu' hv' hf'.leads .plain
      refine ⟨_, hresult', hhead'.trans hhead.symm, hlast'.trans hlast.symm, ?_⟩
      dsimp only
      rw [cost_summarize_of_shortest hg' hf', cost_summarize_of_shortest hg hf, hsame]
      exact hf'.le_total hw' hes'

/-- A planner that has loaded what another one has plans no worse. -/
theorem Ahead.route (hd : Divided p₀.catalog read) (hf : p₀.Fresh) (h : p₀.Ahead read p q)
    (hlimit : p₀.settings.stepLimit = none)
    (hshort : ¬ p₀.settings.guidedAbove < (p₀.corridor origin destination).straight)
    (hroads : ∀ part, Offers p₀.catalog read part →
      ∀ r ∈ part.roads, IsWeight (roadCost p₀.travel objective r)) :
    NoWorse objective (p.route read origin destination objective).result
      (q.route read origin destination objective).result := by
  have hrouted := p.route_routed read origin destination objective
  have hrouted' := q.route_routed read origin destination objective
  have hcorridor := h.behind.moves.same.corridor origin destination
  have hcorridor' := h.steady.moves.same.corridor origin destination
  generalize p.route read origin destination objective = reply at hrouted ⊢
  generalize q.route read origin destination objective = reply' at hrouted' ⊢
  intro hroom r hr
  cases hrouted with
  | uncovered _ _ | originFar _ _ _ | destinationFar _ _ _ _ => cases hr
  | originBroken _ _ _ | destinationBroken _ _ _ _ => cases hr
  | unloaded _ _ | originLost _ _ _ | destinationLost _ _ _ _ => cases hr
  | searched w hs h4 h5 =>
    have hcovered := hs.covered
    have hbefore := hs
    cases hbefore with
    | intro _ h1 h2 h3 =>
    cases hrouted' with
    | uncovered _ he =>
      rw [hcorridor] at hcovered
      rw [hcorridor', hcovered] at he
      cases he
    | unloaded _ h1' =>
      obtain ⟨⟨report, hok⟩, -⟩ := h.ensure_corridor hd h1 h1' fun hfull => hroom hfull.of_error
      cases hok
    | originBroken _ h1' h2' =>
      obtain ⟨-, ha⟩ := h.ensure_corridor hd h1 h1' (not_isFull_ok _)
      exact absurd h2' (ha.steady.nearest_ne_error hf (ha.behind.snap hf h2))
    | destinationBroken _ h1' h2' h3' =>
      obtain ⟨-, ha⟩ := h.ensure_corridor hd h1 h1' (not_isFull_ok _)
      have ha := ha.nearest h2 h2'
      exact absurd h3' (ha.steady.nearest_ne_error hf (ha.behind.snap hf h3))
    | originFar _ h1' h2' =>
      obtain ⟨-, ha⟩ := h.ensure_corridor hd h1 h1' (not_isFull_ok _)
      cases ha.nearest_eq hf h2 h2'
    | destinationFar _ h1' h2' h3' =>
      obtain ⟨-, ha⟩ := h.ensure_corridor hd h1 h1' (not_isFull_ok _)
      have ha := ha.nearest h2 h2'
      cases ha.nearest_eq hf h3 h3'
    | originLost _ hs' h4' =>
      obtain ⟨rfl, rfl, ha⟩ := h.snapped hd hf hs hs'
      obtain ⟨⟨v, hv⟩, -⟩ := ha.resolve hd h4 h4' fun hfull => hroom hfull.of_error
      cases hv
    | destinationLost _ hs' h4' h5' =>
      obtain ⟨rfl, rfl, ha⟩ := h.snapped hd hf hs hs'
      obtain ⟨-, ha⟩ := ha.resolve hd h4 h4' (not_isFull_ok _)
      obtain ⟨⟨v, hv⟩, -⟩ := ha.resolve hd h5 h5' fun hfull => hroom hfull.of_error
      cases hv
    | searched w' hs' h4' h5' =>
      obtain ⟨rfl, rfl, ha⟩ := h.snapped hd hf hs hs'
      have hends := lookup_of_searched (ha.behind.grown hf) h4 h5
      have hends' := lookup_of_searched (ha.steady.grown hf) h4' h5'
      obtain ⟨-, ha⟩ := ha.resolve hd h4 h4' (not_isFull_ok _)
      obtain ⟨-, ha⟩ := ha.resolve hd h5 h5' (not_isFull_ok _)
      rw [hcorridor] at hr
      rw [hcorridor'] at hroom ⊢
      exact ha.finish hd hlimit hshort hroads hends.1 hends.2 hends'.1 hends'.2 w w' hroom r hr

/-- What was asked of a planner before can only help. -/
theorem history_helps (hd : Divided p₀.catalog read) (hf : p₀.Fresh) (h : History read p₀ p)
    (hlimit : p₀.settings.stepLimit = none)
    (hshort : ¬ p₀.settings.guidedAbove < (p₀.corridor origin destination).straight)
    (hroads : ∀ part, Offers p₀.catalog read part →
      ∀ r ∈ part.roads, IsWeight (roadCost p₀.travel objective r)) :
    NoWorse objective (p₀.route read origin destination objective).result
      (p.route read origin destination objective).result := by
  refine Ahead.route hd hf ⟨.start hf, h.steady hd hf, ?_⟩ hlimit hshort hroads
  intro cell hcell
  unfold Loaded at hcell
  rw [hf.holding] at hcell
  simp [Holding.empty] at hcell

end Search
end Planner

/-! ## Two partitions without a row in common -/

namespace Pair

/-- A junction, and a road that runs against the one of the first partition. -/
def beyond : Partition ENNReal Point :=
  ⟨away, [⟨3, ⟨0.25, 0.25⟩⟩], [⟨2, 1, 4, "road", none, true⟩]⟩

/-- Reads the partition of the query and the other one. -/
def readApart : Reader ENNReal := readFrom [Sole.partition, beyond]

/-- A planner that never uses estimates. -/
noncomputable def patient : Planner ENNReal :=
  { Sole.fresh with
    settings := { Sole.fresh.settings with guidedAbove := 1.0 / 0.0 }
    catalog := awayCatalog }

/-- The same after a request that failed, and one that brought in the other partition. -/
noncomputable def resumed : Planner ENNReal :=
  ((patient.ensure (readFrom []) awayCatalog.cells).2.ensure readApart ((∅ : CellSet).insert away)).2

theorem fresh_patient : patient.Fresh := ⟨rfl, rfl⟩

theorem mem_apart {cell : Cell} {part : Partition ENNReal Point} (h : readApart cell = .ok part) :
    (part = Sole.partition ∨ part = beyond) ∧ part.cell = cell := by
  obtain ⟨hpart, hcell⟩ := mem_of_readFrom h
  exact ⟨List.mem_pair.1 hpart, hcell⟩

theorem divided_apart : Divided awayCatalog readApart where
  labelled cell part h := (mem_apart h).2
  apart := by
    refine Apart.of_two (x := Sole.partition) (y := beyond) ?_ (by decide) ?_
    · intro part hp
      exact (mem_apart hp.2).1
    · simp only [Sole.partition, beyond, List.mem_singleton, Joins]
      rintro _ rfl _ rfl a b (⟨rfl, rfl⟩ | ⟨-, -, hboth⟩)
      · decide
      · cases hboth

/-- There are too few rows to fill a network. -/
theorem roomy_apart {rs : List (Request Dataset.Fault ENNReal Point)}
    (h : ∀ r ∈ rs, Follows readApart r.read) : Roomy awayCatalog.cells patient.travel rs := by
  refine roomy_of_few [Sole.partition, beyond] ?_ ⟨by decide, by decide⟩
  intro r hr cell part _ hread
  exact List.mem_pair.2 (mem_apart (h r hr cell part hread)).1

/-- Neither request meets a full network. -/
theorem history_resumed : Planner.History readApart patient resumed := by
  let first : Request Dataset.Fault ENNReal Point := requestFrom [] awayCatalog.cells
  let second : Request Dataset.Fault ENNReal Point :=
    requestFrom [Sole.partition, beyond] ((∅ : CellSet).insert away)
  have hfollows : Follows readApart (readFrom []) := nofun
  have hroomy : Roomy awayCatalog.cells patient.travel [first, second] := by
    apply roomy_apart
    intro r hr
    rcases List.mem_pair.1 hr with rfl | rfl
    · exact hfollows
    · exact .refl _
  have hspared {p : Planner ENNReal} (hs : patient.Same p)
      (rs : List (Request Dataset.Fault ENNReal Point)) (r : Request Dataset.Fault ENNReal Point)
      (hheld : p.holding = held awayCatalog.cells patient.travel rs)
      (hp : rs ++ [r] <+: [first, second]) : ¬ IsFull (p.ensure r.read r.cells).1 := by
    intro hfull
    obtain ⟨e, he⟩ := (Planner.isFull_ensure_iff hs hheld r).1 hfull
    exact hroomy rs r hp e he
  have hstart : patient.Same patient := ⟨rfl, rfl, rfl, rfl, rfl, rfl⟩
  have hsame : patient.Same (patient.ensure (readFrom []) awayCatalog.cells).2 :=
    ⟨rfl, rfl, rfl, rfl, rfl, rfl⟩
  have hfirst := hspared hstart [] first rfl (List.prefix_append [first] [second])
  have hsecond := hspared hsame [first] second rfl (List.prefix_refl _)
  exact .ensure readApart _ (.refl _) hsecond (.ensure (readFrom []) _ hfollows hfirst .start)

theorem roomy_one (keys : CellSet) :
    Roomy awayCatalog.cells patient.travel [requestFrom [Sole.partition, beyond] keys] := by
  apply roomy_apart
  intro r hr
  rw [List.mem_singleton.1 hr]
  exact .refl _

/-- A first request succeeds. -/
theorem ensure_apart (keys : CellSet) : ∃ report p, patient.ensure readApart keys = (.ok report, p) ∧
    p.holding = held awayCatalog.cells patient.travel [requestFrom [Sole.partition, beyond] keys] := by
  have hparts : ∀ cell ∈ patient.catalog.cells, cell ∈ [Sole.partition, beyond].map (·.cell) :=
    fun cell hcell => List.mem_pair.2 (mem_away.1 hcell)
  have hstart : patient.Same patient := ⟨rfl, rfl, rfl, rfl, rfl, rfl⟩
  have hheld : patient.holding = held patient.catalog.cells patient.travel
    ([] : List (Request Dataset.Fault ENNReal Point)) := rfl
  obtain ⟨report, hensure⟩ := Planner.ensure_few hstart hheld hparts (roomy_one keys)
  exact ⟨report, _, hensure, rfl⟩

/-- For the first partition alone, it brings in what the rows of that partition say. -/
theorem lastWrites_home {p : Planner ENNReal} (hheld : p.holding = held awayCatalog.cells patient.travel
      [requestFrom [Sole.partition, beyond] ((∅ : CellSet).insert home)]) :
    LastWrites patient.travel [Sole.partition] p.holding.network := by
  have hread : readFrom [Sole.partition, beyond] home = .ok Sole.partition := by
    simp [readFrom, Sole.partition]
  have horder := loadOrder_one (mem_away.2 (.inl rfl)) hread
  have hmade := (kept (roomy_one ((∅ : CellSet).insert home))).made.lastWrites
  rwa [horder, ← hheld] at hmade

/-- A request that asks for it and maybe for more brings this in as well. -/
theorem ensure_patient {keys : CellSet} (hkeys : keys.contains home) : ∃ report p,
    patient.ensure readApart keys = (.ok report, p) ∧ p.holding.network.Grown ∧
    p.holding.network.positionOf 1 = some ⟨0.5, 0.5⟩ ∧
    p.holding.network.positionOf 2 = some ⟨0.25, 0.75⟩ ∧
    p.holding.network.linkOf 1 2 = some ⟨5, 3, "road"⟩ := by
  obtain ⟨less, p₁, hless, hheld⟩ := ensure_apart ((∅ : CellSet).insert home)
  obtain ⟨report, p₂, hmore, -⟩ := ensure_apart keys
  have hwrites := lastWrites_home hheld
  have hsteady : patient.Steady readApart patient := .start fresh_patient
  obtain ⟨hsteady₁, hsupplied₁⟩ := hsteady.ensure divided_apart (.refl _) hless (not_isFull_ok _)
  obtain ⟨hsteady₂, hsupplied₂⟩ := hsteady.ensure divided_apart (.refl _) hmore (not_isFull_ok _)
  have hahead : patient.Ahead readApart p₁ p₂ := by
    refine ⟨hsteady₁, hsteady₂, fun cell hcell => ?_⟩
    rcases hsupplied₁.only cell hcell with hold | hkey
    · exact hsupplied₂.keeps cell hold
    · rw [Planner.eq_of_contains_one hkey]
      exact hsupplied₂.complete report rfl home hkeys (mem_away.2 (.inl rfl))
  have hwithin := hahead.within divided_apart
  exact ⟨report, p₂, hmore, hsteady₂.grown fresh_patient,
    hwithin.position _ _ ((hwrites.position 1).trans rfl),
    hwithin.position _ _ ((hwrites.position 2).trans rfl),
    hwithin.link _ _ _ ((hwrites.link 1 2).trans rfl)⟩

/-- So there is a route at first, if both ends can be moved to the junctions. -/
theorem route_patient {start goal : Hit}
    (hstart : patient.index.snap ⟨0.5, 0.5⟩ patient.settings.snapRadius = .ok (some start))
    (hgoal : patient.index.snap ⟨0.25, 0.75⟩ patient.settings.snapRadius = .ok (some goal)) :
    ∃ r, (patient.route readApart ⟨0.5, 0.5⟩ ⟨0.25, 0.75⟩ .distance).result = .ok (some r) := by
  have hcontains : (patient.corridor ⟨0.5, 0.5⟩ ⟨0.25, 0.75⟩).available.contains home :=
    patient.contains_corridor (by decide +kernel) (by decide +kernel) containing_home
      (mem_away.2 (.inl rfl))
  obtain ⟨report, p₁, h1, hg, hfirst, hsecond, hlink⟩ := ensure_patient hcontains
  obtain ⟨p₃, warnings, hs, hroute⟩ := Planner.route_of_snap .distance (.of_memo_empty rfl)
    (Std.TreeSet.isEmpty_eq_false_of_contains hcontains) h1 hstart hgoal
  have hof := Sole.ends_of_snap hstart hgoal
  rw [← hs.holding h1] at hg hfirst hsecond hlink
  have hstored {hit : Hit} {e : Snap.Entry} (he : e ∈ Sole.entries home home) (hhit : hit.Of e) :
      ∃ v, loadedNode p₃.holding.network hit = .ok (some v) :=
    Sole.loadedNode_of_entry hfirst hsecond he hhit
  obtain ⟨u, hu⟩ := hstored (List.mem_pair.2 (.inl rfl)) hof.1
  obtain ⟨v, hv⟩ := hstored (List.mem_pair.2 (.inr rfl)) hof.2
  have hu := Planner.resolve_of_loadedNode readApart hu
  have hv := Planner.resolve_of_loadedNode readApart hv
  obtain ⟨hsource, htarget⟩ := Planner.lookup_of_searched hg hu hv
  obtain ⟨u', e, hu', he, hv', hlength, -⟩ := Network.exists_edge_of_linkOf hlink
  obtain rfl : u = u' := Option.some.inj (hsource.symm.trans (hof.1.id ▸ hu'))
  obtain rfl : v = e.target := Option.some.inj (htarget.symm.trans (hof.2.id ▸ hv'))
  have hfinite : Network.total .distance [e] < Network.Cost.infinite := by
    show 0 + e.length < ⊤
    rw [hlength]
    exact (zero_add (5 : ENNReal)).trans_lt ENNReal.ofNat_lt_top
  have m : Planner.Moves (fun _ => True) patient p₃ := hs.moves trivial
  have hguided : IsStandard p₃.guided := m.same.guided ▸ .inr ⟨_, _, rfl⟩
  have hlimit : p₃.settings.stepLimit = none := m.same.settings ▸ rfl
  obtain ⟨r, more, hconnect, -⟩ := Planner.connect_of_walk hg hguided hlimit hu hv
    (fun _ _ _ => Network.Exact.isWeight _) (.snoc .nil he) hfinite
    (patient.corridor ⟨0.5, 0.5⟩ ⟨0.25, 0.75⟩).straight warnings
  exact ⟨r, by rw [hroute, hconnect]⟩

theorem history_helps_resumed :
    (Divided patient.catalog readApart ∧ patient.Fresh ∧ Planner.History readApart patient resumed ∧
      patient.settings.stepLimit = none ∧
      ¬ patient.settings.guidedAbove < (patient.corridor ⟨0.5, 0.5⟩ ⟨0.25, 0.75⟩).straight ∧
      ∀ part, Offers patient.catalog readApart part → ∀ r ∈ part.roads,
        IsWeight (roadCost patient.travel .distance r)) ∧
    NoWorse .distance (patient.route readApart ⟨0.5, 0.5⟩ ⟨0.25, 0.75⟩ .distance).result
      (resumed.route readApart ⟨0.5, 0.5⟩ ⟨0.25, 0.75⟩ .distance).result ∧
    -- the first of the answers is a route whenever both ends are moved
    ∀ start goal, patient.index.snap ⟨0.5, 0.5⟩ patient.settings.snapRadius = .ok (some start) →
      patient.index.snap ⟨0.25, 0.75⟩ patient.settings.snapRadius = .ok (some goal) →
      ∃ r, (patient.route readApart ⟨0.5, 0.5⟩ ⟨0.25, 0.75⟩ .distance).result = .ok (some r) := by
  have hlimit : patient.settings.stepLimit = none := rfl
  have hshort : ¬ patient.settings.guidedAbove < (patient.corridor ⟨0.5, 0.5⟩ ⟨0.25, 0.75⟩).straight :=
    Binary64.not_infinity_lt _
  have hroads : ∀ part, Offers patient.catalog readApart part → ∀ r ∈ part.roads,
      IsWeight (roadCost patient.travel .distance r) := fun _ _ _ _ => Network.Exact.isWeight _
  exact ⟨⟨divided_apart, fresh_patient, history_resumed, hlimit, hshort, hroads⟩,
    Planner.history_helps divided_apart fresh_patient history_resumed hlimit hshort hroads,
    fun _ _ => route_patient⟩

end Pair
end RoadRouting.Trip
