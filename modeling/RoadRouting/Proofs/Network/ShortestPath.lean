import RoadRouting.Proofs.Network.Explored
import RoadRouting.Proofs.Network.Floats

/-!
# Shortest paths

A search without a limit of steps finds a path of finite cost or tells that there is none, whatever its
estimates are (`Query.Sound.leads`). If they never exceed what remains (`Query.Admissible`) the path is of
least cost: when the target comes out of the frontier, each walk that is cheaper would have a waiting
node with a lower score on it. The path that the predecessors give costs no more than what is kept for
the target, and so exactly that. The search without estimates (`plain_shortest`) needs the laws of costs
only.
-/

namespace RoadRouting.Network
set_option autoImplicit false
open Cost (IsWeight IsSum)

variable {α π : Type}

/-- A path of least cost from one node to another: its nodes, joined by edges of the network, its cost,
and what the edges of any other walk add up to. -/
structure Shortest [Cost α] (g : Network α π) (o : Objective) (u v : NodeId) (f : Found α) : Prop where
  head : f.path.head? = some u
  last : f.path.getLast? = some v
  nodup : f.path.Nodup
  linked : f.path.IsChain fun a b => (g.edge? a b).isSome
  walk : ∃ es, g.Walk u es v ∧ f.path = visited u es ∧ f.cost = total o es
  finite : f.cost < Cost.infinite
  least : ∀ es, g.Walk u es v → ¬ total o es < f.cost

/-- The nodes of a walk of finite cost. -/
def Leads [Cost α] (g : Network α π) (o : Objective) (u v : NodeId) (f : Found α) : Prop :=
  ∃ es, g.Walk u es v ∧ f.path = visited u es ∧ total o es < Cost.infinite

/-- What a search has to answer, if it has to find a path of some kind. -/
def Answers [Cost α] (g : Network α π) (o : Objective) (u v : NodeId) (kind : Found α → Prop) :
    Except SearchFault (Found α) → Prop
  | .ok f => kind f
  | .error fault => fault = .noPath ∧ ∀ es, g.Walk u es v → ¬ total o es < Cost.infinite

section Search
variable [Cost α] [LawfulCost α] {g : Network α π} {q : Query α} {s : State α}

attribute [local instance] LawfulCost.order

/-- No estimate exceeds what any walk to the target adds to a cost. -/
structure Query.Admissible (g : Network α π) (q : Query α) : Prop where
  weight : ∀ v, IsWeight (q.estimate v)
  source : 0 + q.estimate q.source = q.estimate q.source
  below : ∀ u es (c : α), g.Walk u es q.target → IsSum c →
    ¬ costFrom q.objective c es < c + q.estimate u

omit [LawfulCost α] in
theorem Shortest.leads {o : Objective} {u v : NodeId} {f : Found α} (h : Shortest g o u v f) :
    Leads g o u v f := by
  obtain ⟨es, hes, hpath, hcost⟩ := h.walk
  exact ⟨es, hes, hpath, hcost ▸ h.finite⟩

omit [LawfulCost α] in
theorem Shortest.of_walk (hg : g.WellFormed) {o : Objective} {u v : NodeId} {es : List (Edge α)}
    (h : g.Walk u es v) (hn : (visited u es).Nodup) (hfin : total o es < Cost.infinite)
    (hleast : ∀ es', g.Walk u es' v → ¬ total o es' < total o es) :
    Shortest g o u v ⟨visited u es, total o es⟩ where
  head := rfl
  last := h.getLast?_visited
  nodup := hn
  linked := h.isChain hg
  walk := ⟨es, h, rfl, rfl⟩
  finite := hfin
  least := hleast

/-- A path of least cost costs no more than any walk. -/
theorem Shortest.le_total {o : Objective} {u v : NodeId} {f : Found α} (hw : g.Weighted o)
    (h : Shortest g o u v f) {es : List (Edge α)} (hes : g.Walk u es v) : f.cost ≤ total o es := by
  have hleast := h.least es hes
  obtain ⟨es', hes', -, hcost⟩ := h.walk
  rw [hcost] at hleast ⊢
  exact (hes'.isSum hw).le_of_not_lt (hes.isSum hw) hleast

/-- The edges of a trail lead from the source to its end, and cost no more than what is kept there. -/
theorem Reached.exists_walk (r : Reached g q s) (hq : q.Sound g) {v : NodeId} {vs : List NodeId}
    (h : s.Trail q.source v vs) : ∃ es, g.Walk q.source es v ∧ visited q.source es = vs ∧
      total q.objective es ≤ s.bestOf v := by
  induction h with
  | root _ => exact ⟨[], .nil, rfl, le_of_eq r.source.symm⟩
  | @step v w vs hp _ ih =>
    obtain ⟨es, hes, rfl, hle⟩ := ih
    obtain ⟨e, he, rfl, hew⟩ := r.tree v w hp
    refine ⟨es ++ [e], hes.snoc he, visited_snoc es e, ?_⟩
    calc total q.objective (es ++ [e]) = total q.objective es + e.cost q.objective :=
          costFrom_snoc es e
      _ ≤ s.bestOf v + e.cost q.objective :=
          (hes.isSum hq.weighted).add_le_add (r.isSum v) (hq.weighted v e he) hle
      _ ≤ s.bestOf e.target := hew

/-- The nodes that are read off at the end are those of the trail. -/
theorem Reached.pathTo_eq (r : Reached g q s) (hq : q.Sound g) {v : NodeId} {vs : List NodeId}
    (h : s.Trail q.source v vs) : s.pathTo v = vs := by
  obtain ⟨es, hes, rfl, -⟩ := r.exists_walk hq h
  have hlen : (visited q.source es).length ≤ s.prev.size + 1 := by
    have := hes.length_lt hq.wellFormed hq.source h.nodup
    simp only [visited, List.length_cons, List.length_map, r.prev_size]
    omega
  rw [State.pathTo, h.trace_eq hlen, List.append_nil]

namespace Search
variable {entry : Entry α} {queue : Frontier α}

/-- The first entry has its estimate for a score, as the others do, if nothing is added by nothing. -/
theorem score_eq (hsource : 0 + q.estimate q.source = q.estimate q.source) {y : Entry α}
    (hy : Waiting q s y) : y.score = y.cost + q.estimate y.node := by
  rcases hy.score with h | rfl
  · exact h
  · exact hsource.symm

/-- No walk to the target is cheaper than what comes out of the frontier. -/
theorem not_lt_of_pop (r : Search g q s) (hq : q.Sound g) (ha : q.Admissible g)
    (h : s.queue.pop? = some (entry, queue)) (es : List (Edge α))
    (hes : g.Walk q.source es q.target) : ¬ total q.objective es < entry.cost := by
  intro hlt
  have hentry := r.reached.popped h
  have hfin : total q.objective es < Cost.infinite := lt_trans hlt hentry.finite
  obtain ⟨p, t, y, rfl, hp, hy, hyq, hyp⟩ := r.exists_waiting hq hes hfin
  have hwait := r.reached.waiting y hyq
  have hrest : costFrom q.objective y.cost t ≤ total q.objective (p ++ t) := by
    rw [total, costFrom_append]
    exact hy.costFrom_mono hq.weighted hwait.isSum (hp.isSum hq.weighted) hyp
  have hbelow : y.cost + q.estimate y.node ≤ costFrom q.objective y.cost t :=
    (hwait.isSum.add (ha.weight _)).le_of_not_lt (hy.isSum_from hq.weighted hwait.isSum)
      (ha.below y.node t y.cost hy hwait.isSum)
  have hscore : y.score < entry.score :=
    calc y.score = y.cost + q.estimate y.node := score_eq ha.source hwait
      _ ≤ costFrom q.objective y.cost t := hbelow
      _ ≤ total q.objective (p ++ t) := hrest
      _ < entry.cost := hlt
      _ ≤ entry.cost + q.estimate entry.node := hentry.isSum.le_add (ha.weight _)
      _ = entry.score := (score_eq ha.source hentry).symm
  have hbefore := Entry.before_of_rank (LawfulCost.rank_of_lt hscore)
  rw [r.reached.ordered.not_before h hyq] at hbefore
  cases hbefore

/-- What comes out of the frontier for the target stands for a walk that costs no more. -/
theorem exists_walk (r : Search g q s) (hq : q.Sound g) (h : s.queue.pop? = some (entry, queue))
    (ht : entry.node = q.target) : ∃ es, g.Walk q.source es q.target ∧
      s.pathTo q.target = visited q.source es ∧ (visited q.source es).Nodup ∧
      total q.objective es ≤ entry.cost := by
  have hentry := r.reached.popped h
  have hbest : s.bestOf q.target ≤ entry.cost := ht ▸ hentry.above
  obtain ⟨vs, hvs⟩ := r.reached.trail q.target (lt_of_le_of_lt hbest hentry.finite)
  obtain ⟨es, hes, rfl, hle⟩ := r.reached.exists_walk hq hvs
  exact ⟨es, hes, r.reached.pathTo_eq hq hvs, hvs.nodup, le_trans hle hbest⟩

theorem leads (r : Search g q s) (hq : q.Sound g) (h : s.queue.pop? = some (entry, queue))
    (ht : entry.node = q.target) :
    Leads g q.objective q.source q.target ⟨s.pathTo q.target, entry.cost⟩ := by
  have hentry := r.reached.popped h
  obtain ⟨es, hes, hpath, -, hle⟩ := r.exists_walk hq h ht
  exact ⟨es, hes, hpath, lt_of_le_of_lt hle hentry.finite⟩

/-- With admissible estimates that walk is a shortest one. -/
theorem shortest (r : Search g q s) (hq : q.Sound g) (ha : q.Admissible g)
    (h : s.queue.pop? = some (entry, queue)) (ht : entry.node = q.target) :
    Shortest g q.objective q.source q.target ⟨s.pathTo q.target, entry.cost⟩ := by
  have hentry := r.reached.popped h
  have hleast := fun es => r.not_lt_of_pop hq ha h es
  obtain ⟨es, hes, hpath, hnodup, hle⟩ := r.exists_walk hq h ht
  have hcost : total q.objective es = entry.cost :=
    le_antisymm hle (hentry.isSum.le_of_not_lt (hes.isSum hq.weighted) (hleast es hes))
  rw [hpath, ← hcost]
  refine .of_walk hq.wellFormed hes hnodup ?_ ?_
  · rw [hcost]
    exact hentry.finite
  · intro es' hes'
    rw [hcost]
    exact hleast es' hes'

/-- What holds of a search as long as it goes on, and says at least that it is one. -/
structure Upheld (g : Network α π) (q : Query α) (P : State α → Prop) : Prop where
  search : ∀ {s}, P s → Search g q s
  drop : ∀ {s entry queue}, P s → s.queue.pop? = some (entry, queue) →
    s.bestOf entry.node < entry.cost → P { s with queue }
  expand : ∀ {s entry queue}, P s → s.queue.pop? = some (entry, queue) →
    ¬ s.bestOf entry.node < entry.cost → entry.node ≠ q.target → ∀ steps,
    P ((g.out entry.node).foldl (State.relax q entry) { s with queue, steps })

theorem upheld (hq : q.Sound g) : Upheld g q (Search g q) where
  search r := r
  drop r h hlt := r.drop h hlt
  expand r h hlt hne steps := ((r.expanding h hlt steps).search hq hne).1

section Steps
variable {P : State α → Prop} {kind : Found α → Prop} (hP : Upheld g q P)
  (hkind : ∀ s entry queue, P s → s.queue.pop? = some (entry, queue) → entry.node = q.target →
    kind ⟨s.pathTo q.target, entry.cost⟩)
include hP hkind

/-- A step stops with the right answer, or leaves less to do. -/
theorem step (r : P s) (hq : q.Sound g) (hl : q.limit = none) :
    (∃ t, State.step g q s = .running t ∧ P t ∧ potential g q t < potential g q s) ∨
    ∃ a, State.step g q s = .stopped a ∧ Answers g q.objective q.source q.target kind a := by
  unfold State.step
  cases h : s.queue.pop? with
  | none =>
    refine .inr ⟨_, rfl, rfl, ?_⟩
    intro es hes hfin
    obtain ⟨p, t, y, -, -, -, hy, -⟩ := (hP.search r).exists_waiting hq hes hfin
    rw [Frontier.pop?_eq_none h] at hy
    cases hy
  | some popped =>
    obtain ⟨entry, queue⟩ := popped
    simp only [hl, State.exceeds]
    by_cases ht : entry.node = q.target
    · rw [if_pos ht, ht]
      exact .inr ⟨_, rfl, hkind s entry queue r h ht⟩
    · rw [if_neg ht]
      by_cases hlt : s.bestOf entry.node < entry.cost
      · rw [if_pos hlt]
        exact .inl ⟨_, rfl, hP.drop r h hlt, potential_pop h s.steps⟩
      · rw [if_neg hlt]
        have hpot := (((hP.search r).expanding h hlt (s.steps + 1)).search hq ht).2
        exact .inl ⟨_, rfl, hP.expand r h hlt ht (s.steps + 1),
          lt_of_le_of_lt hpot (potential_pop h (s.steps + 1))⟩

/-- As many steps as are left lead to the right answer. -/
theorem advance (hq : q.Sound g) (hl : q.limit = none) (n : Nat) (r : P s) :
    (∃ t, State.advance g q n s = .running t ∧ P t ∧ potential g q t + n ≤ potential g q s) ∨
    ∃ a, State.advance g q n s = .stopped a ∧ Answers g q.objective q.source q.target kind a := by
  induction n generalizing s with
  | zero => exact .inl ⟨s, rfl, r, le_refl _⟩
  | succ n ih =>
    unfold State.advance
    rcases step hP hkind r hq hl with ⟨t, hs, r', hpot⟩ | ⟨a, hs, hans⟩
    · rw [hs]
      rcases ih r' with ⟨t', ht', r'', hpot'⟩ | hans
      · exact .inl ⟨t', ht', r'', by omega⟩
      · exact .inr hans
    · rw [hs]
      exact .inr ⟨a, rfl, hans⟩

/-- As many rounds as steps are left lead to the right answer. -/
theorem advanceRounds (hq : q.Sound g) (hl : q.limit = none) (n : Nat) (r : P s)
    (hn : potential g q s < n) : ∃ a, State.advanceRounds g q n s = .stopped a ∧
      Answers g q.objective q.source q.target kind a := by
  induction n generalizing s with
  | zero => exact absurd hn (Nat.not_lt_zero _)
  | succ n ih =>
    unfold State.advanceRounds
    rcases advance hP hkind hq hl State.round r with ⟨t, hs, r', hpot⟩ | ⟨a, hs, hans⟩
    · have hround : 0 < State.round := by decide
      rw [hs]
      exact ih r' (by omega)
    · rw [hs]
      exact ⟨a, rfl, hans⟩

end Steps
end Search

section Known
variable (hs : q.source.index < g.nodeCount) (ht : q.target.index < g.nodeCount)
include hs ht

omit [Cost α] [LawfulCost α] in
theorem unknown?_eq_none : g.unknown? [q.source, q.target] = none := by
  simp only [unknown?, List.find?_eq_none, List.mem_cons, List.not_mem_nil, or_false]
  rintro v (rfl | rfl) <;> simp <;> omega

omit [LawfulCost α] in
theorem search_self (hst : q.source = q.target) : g.search q = .ok ⟨[q.source], 0⟩ := by
  unfold Network.search
  simp only [unknown?_eq_none hs ht, if_pos hst]

omit [LawfulCost α] in
/-- Between two nodes the answer is what the loop stops with. -/
theorem search_of_stopped (hst : q.source ≠ q.target) {r : Except SearchFault (Found α)}
    (h : State.advanceRounds g q g.patience (State.start g q) = .stopped r) : g.search q = r := by
  unfold Network.search
  simp only [unknown?_eq_none hs ht, if_neg hst, h]

end Known

/-- A search without a limit gives the right answer, if what it reads off at the target is of the right
kind, and so is the path from a node to itself. -/
theorem Query.Sound.answers (hq : q.Sound g) (ht : q.target.index < g.nodeCount)
    (hl : q.limit = none) {P : State α → Prop} {kind : Found α → Prop} (hP : Search.Upheld g q P)
    (hstart : P (State.start g q))
    (hkind : ∀ s entry queue, P s → s.queue.pop? = some (entry, queue) →
      entry.node = q.target → kind ⟨s.pathTo q.target, entry.cost⟩)
    (hself : q.source = q.target → kind ⟨[q.source], 0⟩) :
    Answers g q.objective q.source q.target kind (g.search q) := by
  by_cases hst : q.source = q.target
  · rw [search_self hq.source ht hst]
    exact hself hst
  · obtain ⟨a, hadv, hans⟩ := Search.advanceRounds hP hkind hq hl g.patience hstart
      (potential_start g q)
    rw [search_of_stopped hq.source ht hst hadv]
    exact hans

/-- Whatever the estimates are, a path of finite cost is found if there is one. -/
theorem Query.Sound.leads (hq : q.Sound g) (ht : q.target.index < g.nodeCount) (hl : q.limit = none) :
    Answers g q.objective q.source q.target (Leads g q.objective q.source q.target) (g.search q) :=
  hq.answers ht hl (Search.upheld hq) (Search.start hq) (fun _ _ _ r h ht => r.leads hq h ht)
    fun hst => ⟨[], hst ▸ .nil, rfl, LawfulCost.zero_lt_infinite⟩

/-- With admissible estimates it is a shortest path. -/
theorem Query.Sound.shortest (hq : q.Sound g) (ht : q.target.index < g.nodeCount)
    (ha : q.Admissible g) (hl : q.limit = none) :
    Answers g q.objective q.source q.target (Shortest g q.objective q.source q.target)
      (g.search q) := by
  refine hq.answers ht hl (Search.upheld hq) (Search.start hq)
    (fun _ _ _ r h ht => r.shortest hq ha h ht) ?_
  intro hst
  have hnil : g.Walk q.source [] q.target := hst ▸ .nil
  refine .of_walk hq.wellFormed hnil (List.nodup_singleton _) LawfulCost.zero_lt_infinite
    fun es hes hlt => ?_
  exact lt_irrefl _ (lt_of_le_of_lt (hes.isSum hq.weighted).zero_le hlt)

end Search

section Plain
variable [Quantity α] [LawfulCost α] {g : Network α π} {o : Objective} {u v : NodeId}

attribute [local instance] LawfulCost.order

theorem admissible_zero (hw : g.Weighted o) (limit : Option Nat) :
    (⟨u, v, o, fun _ => 0, limit⟩ : Query α).Admissible g where
  weight _ := Cost.isWeight_zero
  source := LawfulCost.add_zero .zero
  below x es c h hc := by
    rw [LawfulCost.add_zero hc]
    exact not_lt_of_ge (h.le_costFrom hw hc)

/-- The search without estimates gives the right answer. -/
theorem plain_answers (hg : g.WellFormed) (hw : g.Weighted o) (hu : u.index < g.nodeCount)
    (hv : v.index < g.nodeCount) : Answers g o u v (Shortest g o u v) (g.plain u v o none) :=
  Query.Sound.shortest ⟨hg, hw, hu⟩ hv (admissible_zero hw none) rfl

/-- The search without estimates finds a path exactly when some walk has a finite cost, and then one of
least cost. -/
theorem plain_shortest (hg : g.Grown) (hw : g.Weighted o) (hu : u.index < g.nodeCount)
    (hv : v.index < g.nodeCount) :
    ((∃ es, g.Walk u es v ∧ total o es < Cost.infinite) ∧
      ∃ f, g.plain u v o none = .ok f ∧ Shortest g o u v f) ∨
    ((¬ ∃ es, g.Walk u es v ∧ total o es < Cost.infinite) ∧
      g.plain u v o none = .error .noPath) := by
  have h := plain_answers hg.wellFormed hw hu hv
  cases hr : g.plain u v o none with
  | ok f =>
    rw [hr] at h
    obtain ⟨es, hes, -, hcost⟩ := h.walk
    exact .inl ⟨⟨es, hes, hcost ▸ h.finite⟩, f, rfl, h⟩
  | error fault =>
    rw [hr] at h
    obtain ⟨rfl, hnone⟩ := h
    exact .inr ⟨fun ⟨es, hes, hfin⟩ => hnone es hes hfin, rfl⟩

/-- Right answers agree in what they cost if the walks between the nodes they are about do. -/
theorem Answers.agree {u' v' : NodeId} {a b : Except SearchFault (Found α)} (hw : g.Weighted o)
    (hthere : ∀ es, g.Walk u es v → ∃ es', g.Walk u' es' v' ∧ total o es' = total o es)
    (hback : ∀ es', g.Walk u' es' v' → ∃ es, g.Walk u es v ∧ total o es = total o es')
    (ha : Answers g o u v (Shortest g o u v) a) (hb : Answers g o u' v' (Shortest g o u' v') b) :
    (∃ f f', a = .ok f ∧ b = .ok f' ∧ f.cost = f'.cost) ∨
      (a = .error .noPath ∧ b = .error .noPath) := by
  cases a with
  | ok f =>
    obtain ⟨es, hes, -, hcost⟩ := ha.walk
    obtain ⟨back, hback', htotal⟩ := hthere es hes
    cases b with
    | ok f' =>
      obtain ⟨es', hes', -, hcost'⟩ := hb.walk
      obtain ⟨there, hthere', htotal'⟩ := hback es' hes'
      have hle : f.cost ≤ f'.cost := by
        rw [hcost', ← htotal']
        exact ha.le_total hw hthere'
      have hle' : f'.cost ≤ f.cost := by
        rw [hcost, ← htotal]
        exact hb.le_total hw hback'
      exact .inl ⟨f, f', rfl, rfl, le_antisymm hle hle'⟩
    | error fault =>
      rw [← htotal] at hcost
      exact absurd (hcost ▸ ha.finite) (hb.2 back hback')
  | error fault =>
    obtain ⟨rfl, hnone⟩ := ha
    cases b with
    | ok f' =>
      obtain ⟨es', hes', -, hcost'⟩ := hb.walk
      obtain ⟨there, hthere', htotal'⟩ := hback es' hes'
      rw [← htotal'] at hcost'
      exact absurd (hcost' ▸ hb.finite) (hnone there hthere')
    | error fault =>
      obtain ⟨rfl, -⟩ := hb
      exact .inr ⟨rfl, rfl⟩

end Plain

theorem plain_shortest_oneRoad :
    let g : Network Float Nat := oneRoad 4 5 3
    (g.Grown ∧ g.Weighted .time ∧ 1 < g.nodeCount ∧ 0 < g.nodeCount) ∧
    (((∃ es, g.Walk ⟨1⟩ es ⟨0⟩ ∧ total .time es < Cost.infinite) ∧
      ∃ f, g.plain ⟨1⟩ ⟨0⟩ .time none = .ok f ∧ Shortest g .time ⟨1⟩ ⟨0⟩ f) ∨
    ((¬ ∃ es, g.Walk ⟨1⟩ es ⟨0⟩ ∧ total .time es < Cost.infinite) ∧
      g.plain ⟨1⟩ ⟨0⟩ .time none = .error .noPath)) := by
  intro g
  have hg : g.Grown := oneRoad_grown 4 5 3
  have hw : g.Weighted .time := by
    intro v e he
    obtain ⟨-, rfl⟩ := mem_out_oneRoad 4 5 3 he
    exact ⟨by decide +kernel, .inl (by decide +kernel)⟩
  have hn : g.nodeCount = 2 := nodeCount_oneRoad 4 5 3
  exact ⟨⟨hg, hw, by omega, by omega⟩, plain_shortest hg hw (by simp [hn]) (by simp [hn])⟩

end RoadRouting.Network
