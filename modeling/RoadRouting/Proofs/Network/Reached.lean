import RoadRouting.Proofs.Network.Heap
import RoadRouting.Proofs.Network.Walk
import RoadRouting.Network.Search

/-!
# What a search has reached

`Reached` says what the costs, the predecessors and the frontier of a search mean at every time. A
node that has been reached has a walk from the source that costs what is kept for it (`Origin`), and
the predecessors lead back to the source (`Trail`). These are two things: when a node on the trail is
reached anew at a lower cost, the trail gets cheaper than the cost that is kept. The invariant has one
step, the reaching of a node at a lower cost (`Reached.reach`); all else a search does only takes
entries from the frontier.
-/

namespace RoadRouting.Network
set_option autoImplicit false
open Cost (IsWeight IsSum)

variable {α π : Type}

namespace State
variable {s : State α} {u v w x : NodeId}

/-- The node before another one on the way to it. -/
def prevOf (s : State α) (v : NodeId) : Option NodeId := s.prev.getD v.index none

/-- The predecessors lead from one node back to another, over the nodes in between. -/
inductive Trail (s : State α) (u : NodeId) : NodeId → List NodeId → Prop
  | root : s.prevOf u = none → Trail s u u [u]
  | step {v w : NodeId} {vs : List NodeId} : s.prevOf w = some v → Trail s u v vs →
      Trail s u w (vs ++ [w])

namespace Trail

theorem unique {vs ws : List NodeId} (h : s.Trail u v vs) (h' : s.Trail u v ws) : vs = ws := by
  induction h generalizing ws with
  | root hr =>
    cases h' with
    | root _ => rfl
    | step hp _ =>
      rw [hr] at hp
      cases hp
  | step hp _ ih =>
    cases h' with
    | root hr =>
      rw [hr] at hp
      cases hp
    | step hp' ht' =>
      rw [hp] at hp'
      cases hp'
      rw [ih ht']

theorem mem {vs : List NodeId} (h : s.Trail u v vs) : v ∈ vs := by
  cases h <;> simp

theorem source_mem {vs : List NodeId} (h : s.Trail u v vs) : u ∈ vs := by
  induction h with
  | root _ => exact List.mem_singleton_self _
  | step _ _ ih => exact List.mem_append_left _ ih

/-- Each node on a trail has the part up to it as its own trail. -/
theorem exists_prefix {vs : List NodeId} (h : s.Trail u v vs) (hx : x ∈ vs) :
    ∃ ws, ws <+: vs ∧ s.Trail u x ws := by
  induction h with
  | root hr =>
    obtain rfl := List.mem_singleton.1 hx
    exact ⟨_, List.prefix_refl _, .root hr⟩
  | step hp ht ih =>
    rcases List.mem_append.1 hx with hx | hx
    · obtain ⟨ws, hws, hw⟩ := ih hx
      exact ⟨ws, hws.trans (List.prefix_append _ _), hw⟩
    · obtain rfl := List.mem_singleton.1 hx
      exact ⟨_, List.prefix_refl _, .step hp ht⟩

/-- A trail visits no node twice: the second visit would have the same trail as the first. -/
theorem nodup {vs : List NodeId} (h : s.Trail u v vs) : vs.Nodup := by
  induction h with
  | root _ => exact List.nodup_singleton _
  | @step v w vs hp ht ih =>
    refine List.nodup_append.2 ⟨ih, List.nodup_singleton _, ?_⟩
    intro a ha b hb hab
    obtain rfl : a = w := hab.trans (List.mem_singleton.1 hb)
    obtain ⟨ws, hws, hw⟩ := ht.exists_prefix ha
    have heq : vs ++ [a] = ws := (Trail.step hp ht).unique hw
    have hle := hws.length_le
    rw [← heq, List.length_append, List.length_singleton] at hle
    omega

/-- Predecessors that agree on a trail have it in common. -/
theorem congr {t : State α} {vs : List NodeId} (h : s.Trail u v vs)
    (hp : ∀ x ∈ vs, t.prevOf x = s.prevOf x) : t.Trail u v vs := by
  induction h with
  | root hr => exact .root ((hp _ (List.mem_singleton_self _)).trans hr)
  | step hprev ht ih =>
    refine .step ((hp _ (by simp)).trans hprev) (ih fun x hx => hp x ?_)
    exact List.mem_append_left _ hx

/-- Tracing back a trail gives its nodes, if it is given so many steps. -/
theorem trace_eq {vs : List NodeId} (h : s.Trail u v vs) {n : Nat} (hn : vs.length ≤ n + 1)
    (path : List NodeId) : trace s.prev n v path = vs ++ path := by
  induction h generalizing n path with
  | root hr =>
    cases n with
    | zero => rfl
    | succ n =>
      unfold prevOf at hr
      simp [trace, hr]
  | @step v w vs hp ht ih =>
    have hlen : 0 < vs.length := List.length_pos_of_mem ht.mem
    rw [List.length_append, List.length_singleton] at hn
    obtain ⟨m, rfl⟩ : ∃ m, n = m + 1 := ⟨n - 1, by omega⟩
    unfold prevOf at hp
    simp only [trace, hp]
    rw [ih (by omega), List.append_assoc]
    rfl

end Trail

section Reaching
variable [Cost α]

/-- The search after it has reached a node from another one. -/
def reach (s : State α) (q : Query α) (u v : NodeId) (cost : α) : State α :=
  { s with
    best := s.best.setIfInBounds v.index cost
    prev := s.prev.setIfInBounds v.index (some u)
    queue := s.queue.push ⟨v, cost, cost + q.estimate v⟩ }

theorem relax_of_lt {q : Query α} {entry : Entry α} {e : Edge α}
    (h : entry.cost + e.cost q.objective < s.bestOf e.target) :
    relax q entry s e = s.reach q entry.node e.target (entry.cost + e.cost q.objective) := by
  unfold relax
  exact if_pos h

theorem relax_of_not_lt {q : Query α} {entry : Entry α} {e : Edge α}
    (h : ¬ entry.cost + e.cost q.objective < s.bestOf e.target) : relax q entry s e = s := by
  unfold relax
  exact if_neg h

variable {q : Query α} {c : α}

theorem bestOf_reach (hv : v.index < s.best.size) (x : NodeId) :
    (s.reach q u v c).bestOf x = if x = v then c else s.bestOf x := by
  simp only [bestOf, reach, Array.getD_eq_getD_getElem?, Array.getElem?_setIfInBounds, NodeId.eq_iff,
    eq_comm (a := v.index)]
  split <;> rfl

theorem prevOf_reach (hv : v.index < s.prev.size) (x : NodeId) :
    (s.reach q u v c).prevOf x = if x = v then some u else s.prevOf x := by
  simp only [prevOf, reach, Array.getD_eq_getD_getElem?, Array.getElem?_setIfInBounds, NodeId.eq_iff,
    eq_comm (a := v.index)]
  split <;> rfl

theorem mem_entries_reach {y : Entry α} : y ∈ (s.reach q u v c).queue.entries ↔
    y = ⟨v, c, c + q.estimate v⟩ ∨ y ∈ s.queue.entries := by
  have hp := Frontier.push_perm s.queue ⟨v, c, c + q.estimate v⟩
  exact hp.mem_iff.trans List.mem_cons

theorem bestOf_start {g : Network α π} (hs : q.source.index < g.nodeCount) (v : NodeId) :
    (start g q).bestOf v = if v = q.source then 0 else Cost.infinite := by
  simp only [start, bestOf, Array.getD_eq_getD_getElem?, Array.getElem?_setIfInBounds,
    Array.size_replicate, NodeId.eq_iff, eq_comm (a := q.source.index)]
  by_cases hv : v.index = q.source.index
  · rw [if_pos hv, if_pos hs, if_pos hv]
    rfl
  · rw [if_neg hv, if_neg hv, Array.getElem?_replicate]
    split <;> rfl

theorem prevOf_start (g : Network α π) (v : NodeId) : (start g q).prevOf v = none := by
  simp only [start, prevOf, Array.getD_eq_getD_getElem?, Array.getElem?_replicate]
  split <;> rfl

theorem entries_start (g : Network α π) :
    (start g q).queue.entries = [⟨q.source, 0, q.estimate q.source⟩] :=
  List.perm_singleton.1 (Frontier.push_perm Frontier.empty ⟨q.source, 0, q.estimate q.source⟩)

end Reaching
end State

open State (Trail)

section Invariant
variable [Cost α] [LawfulCost α]
attribute [local instance] LawfulCost.order

/-- What a search is about: a well-formed network without negative costs, and a source in it. -/
structure Query.Sound (g : Network α π) (q : Query α) : Prop where
  wellFormed : g.WellFormed
  weighted : g.Weighted q.objective
  source : q.source.index < g.nodeCount

/-- An edge reaches its target at a lower cost than it was before. -/
structure Improves (g : Network α π) (q : Query α) (s : State α) (u : NodeId) (e : Edge α) : Prop where
  edge : e ∈ g.out u
  finite : s.bestOf u < Cost.infinite
  lt : s.bestOf u + e.cost q.objective < s.bestOf e.target

/-- A walk that visits no node twice and costs what is kept for its last node, while no more is kept
for a node on the way than the walk costs up to there. -/
structure Origin (g : Network α π) (q : Query α) (s : State α) (es : List (Edge α)) (v : NodeId) :
    Prop where
  walk : g.Walk q.source es v
  cost : total q.objective es = s.bestOf v
  nodup : (visited q.source es).Nodup
  above : ∀ p x, p <+: es → g.Walk q.source p x → s.bestOf x ≤ total q.objective p

/-- What an entry of the frontier is worth. The first one has the estimate alone as its score. -/
structure Waiting (q : Query α) (s : State α) (y : Entry α) : Prop where
  isSum : IsSum y.cost
  finite : y.cost < Cost.infinite
  above : s.bestOf y.node ≤ y.cost
  score : y.score = y.cost + q.estimate y.node ∨ y = ⟨q.source, 0, q.estimate q.source⟩

/-- What the costs, the predecessors and the frontier of a search mean. -/
structure Reached (g : Network α π) (q : Query α) (s : State α) : Prop where
  best_size : s.best.size = g.nodeCount
  prev_size : s.prev.size = g.nodeCount
  ordered : s.queue.Ordered
  waiting : ∀ y ∈ s.queue.entries, Waiting q s y
  isSum : ∀ v, IsSum (s.bestOf v)
  source : s.bestOf q.source = 0
  origin : ∀ v, s.bestOf v < Cost.infinite → ∃ es, Origin g q s es v
  tree : ∀ v w, s.prevOf w = some v →
    ∃ e ∈ g.out v, e.target = w ∧ s.bestOf v + e.cost q.objective ≤ s.bestOf w
  trail : ∀ v, s.bestOf v < Cost.infinite → ∃ vs, s.Trail q.source v vs

variable {g : Network α π} {q : Query α} {s : State α} {u v x : NodeId} {e : Edge α}

theorem Trail.bestOf_le (r : Reached g q s) (hw : g.Weighted q.objective) {vs : List NodeId}
    (h : s.Trail u v vs) : ∀ x ∈ vs, s.bestOf x ≤ s.bestOf v := by
  induction h with
  | root _ =>
    intro x hx
    rw [List.mem_singleton.1 hx]
  | @step v w vs hp _ ih =>
    intro x hx
    rcases List.mem_append.1 hx with hx | hx
    · obtain ⟨e, he, -, hle⟩ := r.tree v w hp
      calc s.bestOf x ≤ s.bestOf v := ih x hx
        _ ≤ s.bestOf v + e.cost q.objective := (r.isSum v).le_add (hw v e he)
        _ ≤ s.bestOf w := hle
    · rw [List.mem_singleton.1 hx]

/-- All that a state says of a node is no less than what a later one does. -/
theorem Waiting.mono {t : State α} {y : Entry α} (hy : Waiting q s y)
    (hle : ∀ x, t.bestOf x ≤ s.bestOf x) : Waiting q t y :=
  ⟨hy.isSum, hy.finite, le_trans (hle y.node) hy.above, hy.score⟩

theorem Origin.mono {t : State α} {es : List (Edge α)} (o : Origin g q s es v)
    (hv : t.bestOf v = s.bestOf v) (hle : ∀ x, t.bestOf x ≤ s.bestOf x) : Origin g q t es v :=
  ⟨o.walk, o.cost.trans hv.symm, o.nodup, fun p x hp hx => le_trans (hle x) (o.above p x hp hx)⟩

/-- The search after it has followed an edge. -/
abbrev State.follow (s : State α) (q : Query α) (u : NodeId) (e : Edge α) : State α :=
  s.reach q u e.target (s.bestOf u + e.cost q.objective)

/-- The nodes that the walk to a node visits have been reached at no higher cost. -/
theorem Origin.bestOf_le (hq : q.Sound g) {es : List (Edge α)} (o : Origin g q s es v)
    (hx : x ∈ visited q.source es) : s.bestOf x ≤ s.bestOf v := by
  obtain ⟨p, hp, hpx⟩ := o.walk.exists_prefix hx
  calc s.bestOf x ≤ total q.objective p := o.above p x hp hpx
    _ ≤ total q.objective es := o.walk.total_prefix_le hq.weighted hp
    _ = s.bestOf v := o.cost

namespace Reached

/-- What is reached more cheaply is no node that was reached at no higher cost than the one before it:
none on the way. -/
theorem ne_target (r : Reached g q s) (hq : q.Sound g) (i : Improves g q s u e)
    (hx : s.bestOf x ≤ s.bestOf u) : x ≠ e.target := by
  rintro rfl
  have hle : s.bestOf u ≤ s.bestOf u + e.cost q.objective :=
    (r.isSum u).le_add (hq.weighted u e i.edge)
  exact lt_irrefl _ (lt_of_le_of_lt (le_trans hx hle) i.lt)

theorem bestOf_follow (r : Reached g q s) (hq : q.Sound g) (i : Improves g q s u e) (x : NodeId) :
    (s.follow q u e).bestOf x =
      if x = e.target then s.bestOf u + e.cost q.objective else s.bestOf x :=
  State.bestOf_reach (r.best_size ▸ hq.wellFormed.targets u e i.edge) x

theorem prevOf_follow (r : Reached g q s) (hq : q.Sound g) (i : Improves g q s u e) (x : NodeId) :
    (s.follow q u e).prevOf x = if x = e.target then some u else s.prevOf x :=
  State.prevOf_reach (r.prev_size ▸ hq.wellFormed.targets u e i.edge) x

theorem follow_le (r : Reached g q s) (hq : q.Sound g) (i : Improves g q s u e) (x : NodeId) :
    (s.follow q u e).bestOf x ≤ s.bestOf x := by
  rw [r.bestOf_follow hq i]
  split
  · rename_i h
    rw [h]
    exact le_of_lt i.lt
  · exact le_refl _

/-- The walk to a node goes on along an edge that reaches another one more cheaply. -/
theorem origin_follow (r : Reached g q s) (hq : q.Sound g) (i : Improves g q s u e)
    {es : List (Edge α)} (o : Origin g q s es u) :
    Origin g q (s.follow q u e) (es ++ [e]) e.target := by
  have hcost : total q.objective (es ++ [e]) = (s.follow q u e).bestOf e.target := by
    rw [r.bestOf_follow hq i, if_pos rfl, ← o.cost]
    exact costFrom_snoc es e
  have hnew : e.target ∉ visited q.source es := fun hx => r.ne_target hq i (o.bestOf_le hq hx) rfl
  refine ⟨o.walk.snoc i.edge, hcost, ?_, ?_⟩
  · rw [visited_snoc]
    refine List.nodup_append.2 ⟨o.nodup, List.nodup_singleton _, ?_⟩
    intro a ha b hb hab
    exact hnew (List.mem_singleton.1 hb ▸ hab ▸ ha)
  · intro p x hp hx
    rcases List.prefix_concat_iff.1 hp with rfl | hp
    · rw [hcost, hx.unique (o.walk.snoc i.edge)]
    · exact le_trans (r.follow_le hq i x) (o.above p x hp hx)

/-- Trails survive: one that leads through the node that is reached anew takes its new trail. -/
theorem trail_follow (r : Reached g q s) (hq : q.Sound g) (i : Improves g q s u e) {vs : List NodeId}
    (h : s.Trail q.source x vs) : ∃ ws, (s.follow q u e).Trail q.source x ws := by
  obtain ⟨us, hus⟩ := r.trail u i.finite
  have hnot : ∀ y ∈ us, y ≠ e.target := fun y hy =>
    r.ne_target hq i (Trail.bestOf_le r hq.weighted hus y hy)
  have hus' : (s.follow q u e).Trail q.source u us :=
    hus.congr fun y hy => by rw [r.prevOf_follow hq i, if_neg (hnot y hy)]
  induction h with
  | root hr =>
    exact ⟨_, .root (by rw [r.prevOf_follow hq i, if_neg (hnot _ hus.source_mem), hr])⟩
  | @step v w vs hp _ ih =>
    by_cases hwt : w = e.target
    · exact ⟨_, .step (by rw [r.prevOf_follow hq i, if_pos hwt]) hus'⟩
    · obtain ⟨ws, hws⟩ := ih
      exact ⟨_, .step (by rw [r.prevOf_follow hq i, if_neg hwt, hp]) hws⟩

theorem tree_follow (r : Reached g q s) (hq : q.Sound g) (i : Improves g q s u e) {v w : NodeId}
    (h : (s.follow q u e).prevOf w = some v) : ∃ f ∈ g.out v, f.target = w ∧
      (s.follow q u e).bestOf v + f.cost q.objective ≤ (s.follow q u e).bestOf w := by
  have hu : (s.follow q u e).bestOf u = s.bestOf u := by
    rw [r.bestOf_follow hq i, if_neg (r.ne_target hq i (le_refl _))]
  rw [r.prevOf_follow hq i] at h
  by_cases hwt : w = e.target
  · rw [if_pos hwt] at h
    cases h
    refine ⟨e, i.edge, hwt.symm, le_of_eq ?_⟩
    rw [hu, r.bestOf_follow hq i, if_pos hwt]
  · rw [if_neg hwt] at h
    obtain ⟨f, hf, hfw, hle⟩ := r.tree v w h
    refine ⟨f, hf, hfw, ?_⟩
    rw [r.bestOf_follow hq i w, if_neg hwt]
    have hsum : IsSum ((s.follow q u e).bestOf v) := by
      rw [r.bestOf_follow hq i]
      split
      · exact (r.isSum u).add (hq.weighted u e i.edge)
      · exact r.isSum v
    exact le_trans (hsum.add_le_add (r.isSum v) (hq.weighted v f hf) (r.follow_le hq i v)) hle

/-- Following an edge that reaches its target more cheaply keeps the invariant. -/
theorem follow (r : Reached g q s) (hq : q.Sound g) (i : Improves g q s u e) :
    Reached g q (s.follow q u e) where
  best_size := by simpa [State.reach] using r.best_size
  prev_size := by simpa [State.reach] using r.prev_size
  ordered := r.ordered.push _
  waiting y hy := by
    have hsum : IsSum (s.bestOf u + e.cost q.objective) := (r.isSum u).add (hq.weighted u e i.edge)
    rcases State.mem_entries_reach.1 hy with rfl | hy
    · refine ⟨hsum, lt_of_lt_of_le i.lt (r.isSum _).le_infinite, ?_, .inl rfl⟩
      rw [r.bestOf_follow hq i, if_pos rfl]
    · exact (r.waiting y hy).mono (r.follow_le hq i)
  isSum v := by
    rw [r.bestOf_follow hq i]
    split
    · exact (r.isSum u).add (hq.weighted u e i.edge)
    · exact r.isSum v
  source := by
    obtain ⟨us, hus⟩ := r.trail u i.finite
    have hle := Trail.bestOf_le r hq.weighted hus q.source hus.source_mem
    rw [r.bestOf_follow hq i, if_neg (r.ne_target hq i hle), r.source]
  origin v hv := by
    by_cases hve : v = e.target
    · obtain ⟨es, o⟩ := r.origin u i.finite
      exact ⟨es ++ [e], hve ▸ r.origin_follow hq i o⟩
    · have hsame : (s.follow q u e).bestOf v = s.bestOf v := by rw [r.bestOf_follow hq i, if_neg hve]
      obtain ⟨es, o⟩ := r.origin v (hsame ▸ hv)
      exact ⟨es, o.mono hsame (r.follow_le hq i)⟩
  tree v w h := r.tree_follow hq i h
  trail v hv := by
    by_cases hve : v = e.target
    · obtain ⟨us, hus⟩ := r.trail u i.finite
      obtain ⟨ws, hws⟩ := r.trail_follow hq i hus
      exact ⟨_, .step (by rw [r.prevOf_follow hq i, if_pos hve]) hws⟩
    · rw [r.bestOf_follow hq i, if_neg hve] at hv
      obtain ⟨vs, hvs⟩ := r.trail v hv
      exact r.trail_follow hq i hvs

/-- What comes out of the frontier has waited in it. -/
theorem popped (r : Reached g q s) {entry : Entry α} {queue : Frontier α}
    (h : s.queue.pop? = some (entry, queue)) : Waiting q s entry :=
  r.waiting entry ((Frontier.mem_pop? h).2 (.inl rfl))

/-- Taking an entry from the frontier keeps the invariant. -/
theorem pop (r : Reached g q s) {entry : Entry α} {queue : Frontier α}
    (h : s.queue.pop? = some (entry, queue)) (steps : Nat) :
    Reached g q { s with queue, steps } where
  best_size := r.best_size
  prev_size := r.prev_size
  ordered := r.ordered.pop? h
  waiting y hy := by
    have hmem : y ∈ s.queue.entries := (Frontier.mem_pop? h).2 (.inr hy)
    exact (r.waiting y hmem).mono fun _ => le_refl _
  isSum := r.isSum
  source := r.source
  origin v hv := by
    obtain ⟨es, o⟩ := r.origin v hv
    exact ⟨es, o.mono rfl fun _ => le_refl _⟩
  tree := r.tree
  trail v hv := by
    obtain ⟨vs, hvs⟩ := r.trail v hv
    exact ⟨vs, hvs.congr fun _ _ => rfl⟩

/-- The invariant holds when only the source has been reached. -/
theorem start (hq : q.Sound g) : Reached g q (State.start g q) := by
  have hbest := State.bestOf_start (q := q) hq.source
  have hprev : ∀ v, (State.start g q).prevOf v = none := State.prevOf_start g
  have hfinite : ∀ v, (State.start g q).bestOf v < Cost.infinite → v = q.source := by
    intro v hv
    by_contra hne
    rw [hbest, if_neg hne] at hv
    exact lt_irrefl _ hv
  have hsource : (State.start g q).bestOf q.source = 0 := by rw [hbest, if_pos rfl]
  refine ⟨?_, ?_, ?_, ?_, ?_, hsource, ?_, ?_, ?_⟩
  · simp [State.start]
  · simp [State.start]
  · exact Frontier.ordered_empty.push _
  · intro y hy
    rw [State.entries_start] at hy
    obtain rfl := List.mem_singleton.1 hy
    exact ⟨.zero, LawfulCost.zero_lt_infinite, le_of_eq hsource, .inr rfl⟩
  · intro v
    rw [hbest]
    split
    · exact .zero
    · exact .infinite
  · intro v hv
    obtain rfl := hfinite v hv
    refine ⟨[], .nil, hsource.symm, List.nodup_singleton _, ?_⟩
    intro p x hp hx
    obtain rfl := List.prefix_nil.1 hp
    obtain rfl := hx.unique .nil
    exact le_of_eq hsource
  · intro v w hw
    rw [hprev] at hw
    cases hw
  · intro v hv
    obtain rfl := hfinite v hv
    exact ⟨_, .root (hprev _)⟩

end Reached
end Invariant
end RoadRouting.Network
