import RoadRouting.Proofs.Network.Ending
import RoadRouting.Proofs.Network.Ledger
import RoadRouting.Proofs.Network.Limits

/-!
# How many nodes a search expands

With estimates that fall along an edge by no more than it costs (`Query.Consistent`), entries come out of
the frontier in the order of their scores, whatever is put in between (`Settled`). A node that was expanded
is never reached more cheaply then, and is not expanded again; nor is the target. So a search expands fewer
nodes than there are (`Settled.length_lt`), and a limit of so many steps is never exceeded
(`Query.Consistent.search_ne_stepLimit`).
-/

namespace RoadRouting.Network
set_option autoImplicit false
open Cost (IsWeight IsSum)

variable {α π : Type}

section Consistent
variable [Cost α] {g : Network α π} {q : Query α}

/-- The estimates fall along an edge by no more than it costs, keep sums apart, and leave that of the
source as it is. -/
structure Query.Consistent (g : Network α π) (q : Query α) : Prop where
  source : 0 + q.estimate q.source = q.estimate q.source
  lt : ∀ v (a b : α), IsSum a → IsSum b → a < b → b < Cost.infinite →
    Cost.rank (a + q.estimate v) (b + q.estimate v) = .lt
  edge : ∀ u, ∀ e ∈ g.out u, ∀ c : α, IsSum c → c < Cost.infinite →
    Cost.rank (c + e.cost q.objective + q.estimate e.target) (c + q.estimate u) ≠ .lt

/-- What a search has expanded came out in the order of scores and before all that waits, no node twice,
and never the target. -/
structure Settled (g : Network α π) (q : Query α) (s : State α) (log : List (Entry α)) : Prop where
  steps : s.steps = log.length
  score : ∀ y ∈ log, y.score = y.cost + q.estimate y.node
  worth : ∀ y ∈ log, IsSum y.cost ∧ y.cost < Cost.infinite
  inside : ∀ y ∈ log, y.node ≠ q.target ∧ y.node.index < g.nodeCount
  rising : log.Pairwise fun later earlier => later.NotBelow earlier.score
  waiting : ∀ y ∈ log, ∀ x ∈ s.queue.entries, x.NotBelow y.score
  once : (log.map (·.node)).Nodup

variable [LawfulCost α] {s : State α} {entry : Entry α} {queue : Frontier α} {e : Edge α}
  {log : List (Entry α)} {n : Nat}

attribute [local instance] LawfulCost.order

/-- What has been reached is a node of the network. -/
theorem Reached.index_lt (r : Reached g q s) (hq : q.Sound g) {v : NodeId}
    (hv : s.bestOf v < Cost.infinite) : v.index < g.nodeCount := by
  obtain ⟨es, o⟩ := r.origin v hv
  exact o.walk.index_lt hq.wellFormed hq.source v (List.mem_of_getLast? o.walk.getLast?_visited)

namespace Settled

omit [LawfulCost α] in
theorem start (g : Network α π) (q : Query α) : Settled g q (State.start g q) [] :=
  ⟨rfl, nofun, nofun, nofun, .nil, nofun, .nil⟩

omit [LawfulCost α] in
/-- Dropping an entry leaves fewer to wait. -/
theorem drop (h : Settled g q s log) (hp : s.queue.pop? = some (entry, queue)) :
    Settled g q { s with queue } log where
  steps := h.steps
  score := h.score
  worth := h.worth
  inside := h.inside
  rising := h.rising
  waiting y hy x hx := h.waiting y hy x ((Frontier.mem_pop? hp).2 (.inr hx))
  once := h.once

/-- The node of an entry that is not dropped was not expanded before: its score would be below the one
that it had then. -/
theorem expand (h : Settled g q s log) (r : Search g q s) (hc : q.Consistent g) (hq : q.Sound g)
    (hr : Recorded g q s log n) (hp : s.queue.pop? = some (entry, queue))
    (hfresh : ¬ s.bestOf entry.node < entry.cost) (hne : entry.node ≠ q.target) :
    Settled g q { s with queue, steps := s.steps + 1 } (entry :: log) := by
  have hx : Expanding g q entry { s with queue, steps := s.steps + 1 } :=
    r.expanding hp hfresh (s.steps + 1)
  have hentry := r.reached.popped hp
  have hmem : entry ∈ s.queue.entries := (Frontier.mem_pop? hp).2 (.inl rfl)
  have hscore : entry.score = entry.cost + q.estimate entry.node := Search.score_eq hc.source hentry
  refine ⟨congrArg (· + 1) h.steps, ?_, ?_, ?_, ?_, ?_, ?_⟩
  · exact List.forall_mem_cons.2 ⟨hscore, h.score⟩
  · exact List.forall_mem_cons.2 ⟨⟨hentry.isSum, hentry.finite⟩, h.worth⟩
  · have hindex := r.reached.index_lt hq (lt_of_le_of_lt hentry.above hentry.finite)
    exact List.forall_mem_cons.2 ⟨⟨hne, hindex⟩, h.inside⟩
  · exact List.pairwise_cons.2 ⟨fun y hy => h.waiting y hy entry hmem, h.rising⟩
  · have hrest : ∀ x ∈ queue.entries, x ∈ s.queue.entries := fun x hx =>
      (Frontier.mem_pop? hp).2 (.inr hx)
    refine List.forall_mem_cons.2 ⟨fun x hx => ?_, fun y hy x hx => h.waiting y hy x (hrest x hx)⟩
    exact r.reached.notBelow_of_pop hp (hrest x hx)
  · rw [List.map_cons, List.nodup_cons]
    refine ⟨fun hbefore => ?_, h.once⟩
    obtain ⟨y, hy, hnode⟩ := List.mem_map.1 hbefore
    obtain ⟨hsum, hfin⟩ := h.worth y hy
    have hlt : entry.cost < y.cost :=
      (List.pairwise_cons.1 (hr.expand hp hx).falling).1 y hy hnode.symm
    have hbelow := hc.lt entry.node entry.cost y.cost hentry.isSum hsum hlt hfin
    rw [← hscore, ← hnode, ← h.score y hy] at hbelow
    exact h.waiting y hy entry hmem hbelow

/-- What is reached along an edge waits behind the entry whose node is expanded, and so behind all that
came out before it. -/
theorem follow (h : Settled g q s (entry :: log)) (hc : q.Consistent g) (he : e ∈ g.out entry.node)
    (hbest : s.bestOf entry.node = entry.cost) :
    Settled g q (s.follow q entry.node e) (entry :: log) where
  steps := h.steps
  score := h.score
  worth := h.worth
  inside := h.inside
  rising := h.rising
  waiting y hy x hx := by
    rcases State.mem_entries_reach.1 hx with rfl | hx
    · obtain ⟨hsum, hfin⟩ := h.worth entry List.mem_cons_self
      have hbehind : Entry.NotBelow ⟨e.target, s.bestOf entry.node + e.cost q.objective,
          s.bestOf entry.node + e.cost q.objective + q.estimate e.target⟩ entry.score := by
        rw [hbest, h.score entry List.mem_cons_self]
        exact hc.edge entry.node e he entry.cost hsum hfin
      rcases List.mem_cons.1 hy with rfl | hy
      · exact hbehind
      · exact hbehind.trans ((List.pairwise_cons.1 h.rising).1 y hy)
    · exact h.waiting y hy x hx
  once := h.once

omit [LawfulCost α] in
/-- Fewer nodes are expanded than there are: the target is not. -/
theorem length_lt (h : Settled g q s log) (ht : q.target.index < g.nodeCount) :
    log.length < g.nodeCount := by
  have hnodup : (q.target :: log.map (·.node)).Nodup := by
    refine List.nodup_cons.2 ⟨fun hmem => ?_, h.once⟩
    obtain ⟨y, hy, hnode⟩ := List.mem_map.1 hmem
    exact (h.inside y hy).1 hnode
  have hlt : ∀ v ∈ q.target :: log.map (·.node), v.index < g.nodeCount := by
    refine List.forall_mem_cons.2 ⟨ht, fun v hv => ?_⟩
    obtain ⟨y, hy, rfl⟩ := List.mem_map.1 hv
    exact (h.inside y hy).2
  have hlen := length_le_of_nodup hnodup hlt
  rwa [List.length_cons, List.length_map] at hlen

end Settled

open Moment (Occurs)

omit [LawfulCost α] in
/-- The entry whose edges are followed is the one that was expanded last. -/
theorem Moment.Occurs.exists_log {m : Moment α} (h : m.Occurs g q) {left : List (Edge α)}
    (hunder : m.under = some (entry, left)) : ∃ log, m.expanded = entry :: log := by
  induction h generalizing entry left with
  | start => cases hunder
  | drop _ _ _ => cases hunder
  | @expand s entry queue log n _ _ _ =>
    cases hunder
    exact ⟨log, rfl⟩
  | reach _ _ ih =>
    cases hunder
    exact ih rfl
  | pass _ _ ih =>
    cases hunder
    exact ih rfl
  | done _ _ => cases hunder

/-- What was expanded stays settled from one moment to the next. -/
theorem Moment.Occurs.settled {m : Moment α} (h : m.Occurs g q) (hq : q.Sound g)
    (hc : q.Consistent g) : Settled g q m.state m.expanded := by
  induction h with
  | start => exact .start g q
  | drop _ hd ih => exact ih.drop hd.popped
  | expand h hx ih =>
    obtain ⟨hunder, hrecorded⟩ := h.holds hq
    exact ih.expand hunder hc hq hrecorded hx.popped hx.fresh hx.ne
  | @reach s entry e es log n h hlt ih =>
    obtain ⟨hf, -⟩ := h.holds hq
    have hf : Following g q entry (e :: es) s := hf
    obtain ⟨rest, hlog⟩ := h.exists_log rfl
    obtain rfl : log = entry :: rest := hlog
    have hsame : State.relax q entry s e = s.follow q entry.node e := by
      rw [State.relax_of_lt hlt, ← hf.cost]
    exact hsame ▸ ih.follow hc (hf.edges e List.mem_cons_self) hf.cost
  | pass _ hlt ih => exact (State.relax_of_not_lt hlt).symm ▸ ih
  | done _ ih => exact ih

/-- How a search expands nodes: the moments are those of its loop, each step expands another node, none of
them twice, and fewer than there are. -/
structure ExpandsOnce (g : Network α π) (q : Query α) : Prop where
  moments : ∀ s under, (∃ log n, Occurs g q ⟨s, under, log, n⟩) ↔ State.Led g q s under
  steps : ∀ m : Moment α, m.Occurs g q → m.state.steps = m.expanded.length
  once : ∀ m : Moment α, m.Occurs g q → (m.expanded.map (·.node)).Nodup
  fewer : ∀ m : Moment α, m.Occurs g q → m.expanded.length < g.nodeCount

theorem Query.Consistent.expandsOnce (hc : q.Consistent g) (hq : q.Sound g)
    (ht : q.target.index < g.nodeCount) : ExpandsOnce g q where
  moments := occurs_iff
  steps _ h := (h.settled hq hc).steps
  once _ h := (h.settled hq hc).once
  fewer _ h := (h.settled hq hc).length_lt ht

/-! ## Limits that are large enough -/

omit [LawfulCost α] in
/-- What a loop stops with it stops with after some step. -/
theorem State.exists_last {r : Except SearchFault (Found α)} {k : Nat} {s : State α}
    (h : State.advance g q k s = .stopped r) :
    ∃ j t, State.advance g q j s = .running t ∧ State.step g q t = .stopped r := by
  induction k generalizing s with
  | zero => cases h
  | succ k ih =>
    unfold State.advance at h
    cases hstep : State.step g q s with
    | stopped r' =>
      rw [hstep] at h
      cases h
      exact ⟨0, s, rfl, hstep⟩
    | running t =>
      rw [hstep] at h
      obtain ⟨j, t', hj, ht'⟩ := ih h
      refine ⟨j + 1, t', ?_, ht'⟩
      unfold State.advance
      rw [hstep]
      exact hj

omit [LawfulCost α] in
/-- A search gives up where it would expand a node but for its limit. -/
theorem State.step_eq_stepLimit (h : State.step g q s = .stopped (.error .stepLimit)) :
    ∃ entry queue, s.queue.pop? = some (entry, queue) ∧ entry.node ≠ q.target ∧
      ¬ s.bestOf entry.node < entry.cost ∧ State.exceeds q.limit s.steps = true := by
  unfold State.step at h
  cases hp : s.queue.pop? with
  | none =>
    rw [hp] at h
    cases h
  | some popped =>
    obtain ⟨entry, queue⟩ := popped
    simp only [hp] at h
    by_cases hne : entry.node = q.target
    · rw [if_pos hne] at h
      cases h
    rw [if_neg hne] at h
    by_cases hlt : s.bestOf entry.node < entry.cost
    · rw [if_pos hlt] at h
      cases h
    rw [if_neg hlt] at h
    by_cases hgive : State.exceeds q.limit s.steps = true
    · exact ⟨entry, queue, rfl, hne, hlt, hgive⟩
    · rw [if_neg hgive] at h
      cases h

/-- A limit of so many steps as there are nodes but one is never exceeded. -/
theorem Query.Consistent.search_ne_stepLimit (hc : q.Consistent g) (hq : q.Sound g)
    (ht : q.target.index < g.nodeCount) (hl : ∀ n, q.limit = some n → g.nodeCount - 1 ≤ n) :
    g.search q ≠ .error .stepLimit := by
  by_cases hst : q.source = q.target
  · rw [search_self hq.source ht hst]
    exact nofun
  obtain ⟨r, hr⟩ := exists_stopped hq
  rw [search_of_advance hq.source ht hst hr]
  rintro rfl
  obtain ⟨j, t, hj, hstep⟩ := State.exists_last hr
  obtain ⟨entry, queue, hp, hne, hfresh, hgive⟩ := State.step_eq_stepLimit hstep
  obtain ⟨log, n, h, -⟩ := Occurs.start.advance hj
  obtain ⟨hunder, hrecorded⟩ := h.holds hq
  have hnext := (h.settled hq hc).expand hunder hc hq hrecorded hp hfresh hne
  have hlen := hnext.length_lt ht
  have hsteps := hnext.steps
  cases hlimit : q.limit with
  | none =>
    rw [hlimit] at hgive
    cases hgive
  | some k =>
    rw [hlimit] at hgive
    have hk := hl k hlimit
    have hover : k < t.steps + 1 := of_decide_eq_true hgive
    simp only [List.length_cons] at hlen hsteps
    omega

end Consistent
end RoadRouting.Network
