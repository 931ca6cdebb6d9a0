import Mathlib.Data.Set.Card
import RoadRouting.Proofs.Network.ShortestPath

/-!
# How a search ends

With estimates that are too high, or fall by more than an edge costs, a node is expanded again each time
that it is reached more cheaply, so the number of nodes bounds nothing. The moments of a search
(`Moment.Occurs`) keep count: of the entries that were expanded, and of the changes to the frontier, one
edge at a time. No node waits or was expanded twice at the same cost (`Recorded.distinct`), and what is
kept for a node never exceeds what it was expanded for, so it is expanded for ever smaller costs, and
each of them is that of a path that visits no node twice. A change to the frontier uses up a promising
walk or an entry (`Recorded.changes`). So a search ends, and at each of its moments the predecessors are a
tree that can be traced back to the source (`search_ends`).
-/

namespace RoadRouting.Network
set_option autoImplicit false

variable {α π : Type}

/-! ## Steps one after the other -/

namespace State
variable [Cost α] {g : Network α π} {q : Query α} {s t : State α}

/-- A step drops an entry: its node has been reached more cheaply since. -/
structure Drops (q : Query α) (s : State α) (entry : Entry α) (queue : Frontier α) : Prop where
  popped : s.queue.pop? = some (entry, queue)
  ne : entry.node ≠ q.target
  stale : s.bestOf entry.node < entry.cost

/-- A step expands the node of an entry. -/
structure Expands (q : Query α) (s : State α) (entry : Entry α) (queue : Frontier α) : Prop where
  popped : s.queue.pop? = some (entry, queue)
  ne : entry.node ≠ q.target
  fresh : ¬ s.bestOf entry.node < entry.cost
  within : exceeds q.limit s.steps = false

/-- A search that goes on has dropped an entry or expanded a node. -/
theorem step_eq_running_iff : step g q s = .running t ↔ ∃ entry queue,
    (Drops q s entry queue ∧ { s with queue } = t) ∨ (Expands q s entry queue ∧
      (g.out entry.node).foldl (relax q entry) { s with queue, steps := s.steps + 1 } = t) := by
  constructor
  · intro h
    unfold step at h
    cases hp : s.queue.pop? with
    | none =>
      rw [hp] at h
      cases h
    | some popped =>
      obtain ⟨entry, queue⟩ := popped
      simp only [hp] at h
      refine ⟨entry, queue, ?_⟩
      by_cases hne : entry.node = q.target
      · rw [if_pos hne] at h
        cases h
      rw [if_neg hne] at h
      by_cases hlt : s.bestOf entry.node < entry.cost
      · rw [if_pos hlt] at h
        exact .inl ⟨⟨hp, hne, hlt⟩, by injection h⟩
      rw [if_neg hlt] at h
      cases hlimit : exceeds q.limit s.steps with
      | true => simp [hlimit] at h
      | false =>
        simp only [hlimit, Bool.false_eq_true, if_false] at h
        exact .inr ⟨⟨hp, hne, hlt, hlimit⟩, by injection h⟩
  · rintro ⟨entry, queue, ⟨h, rfl⟩ | ⟨h, rfl⟩⟩
    · simp only [step, h.popped, if_neg h.ne, if_pos h.stale]
    · simp only [step, h.popped, if_neg h.ne, if_neg h.fresh, h.within, Bool.false_eq_true, if_false]

theorem advance_add (m n : Nat) (s : State α) : advance g q (m + n) s =
    match advance g q m s with
    | .running t => advance g q n t
    | .stopped r => .stopped r := by
  induction m generalizing s with
  | zero => rw [Nat.zero_add, advance]
  | succ m ih =>
    rw [Nat.succ_add, advance, advance]
    cases step g q s with
    | running t => exact ih t
    | stopped r => rfl

theorem advance_succ {n : Nat} (h : advance g q n s = .running t) :
    advance g q (n + 1) s = step g q t := by
  rw [advance_add, h]
  simp only [advance]
  cases step g q t <;> rfl

/-- Rounds of steps are so many steps. -/
theorem advanceRounds_eq (n : Nat) (s : State α) :
    advanceRounds g q n s = advance g q (n * round) s := by
  induction n generalizing s with
  | zero => rw [Nat.zero_mul, advance, advanceRounds]
  | succ n ih =>
    rw [Nat.succ_mul, Nat.add_comm (n * round), advance_add, advanceRounds]
    cases advance g q round s with
    | running t => exact ih t
    | stopped r => rfl

end State

/-! ## Moments -/

/-- How far a search has come. -/
structure Moment (α : Type) where
  state : State α
  /-- The entry whose edges are followed, with the edges that are left. -/
  under : Option (Entry α × List (Edge α))
  /-- The entries that were expanded, the latest one first. -/
  expanded : List (Entry α)
  /-- How often an entry was put into the frontier or taken out of it. -/
  changes : Nat

/-- The moments that a search comes to, from one change of the frontier to the next. -/
inductive Moment.Occurs [Cost α] (g : Network α π) (q : Query α) : Moment α → Prop
  | start : Occurs g q ⟨State.start g q, none, [], 1⟩
  | drop {s : State α} {entry : Entry α} {queue : Frontier α} {log : List (Entry α)} {n : Nat} :
      Occurs g q ⟨s, none, log, n⟩ → s.Drops q entry queue →
      Occurs g q ⟨{ s with queue }, none, log, n + 1⟩
  | expand {s : State α} {entry : Entry α} {queue : Frontier α} {log : List (Entry α)} {n : Nat} :
      Occurs g q ⟨s, none, log, n⟩ → s.Expands q entry queue →
      Occurs g q ⟨{ s with queue, steps := s.steps + 1 }, some (entry, g.out entry.node),
        entry :: log, n + 1⟩
  | reach {s : State α} {entry : Entry α} {e : Edge α} {es : List (Edge α)}
      {log : List (Entry α)} {n : Nat} :
      Occurs g q ⟨s, some (entry, e :: es), log, n⟩ →
      entry.cost + e.cost q.objective < s.bestOf e.target →
      Occurs g q ⟨State.relax q entry s e, some (entry, es), log, n + 1⟩
  | pass {s : State α} {entry : Entry α} {e : Edge α} {es : List (Edge α)}
      {log : List (Entry α)} {n : Nat} :
      Occurs g q ⟨s, some (entry, e :: es), log, n⟩ →
      ¬ entry.cost + e.cost q.objective < s.bestOf e.target →
      Occurs g q ⟨State.relax q entry s e, some (entry, es), log, n⟩
  | done {s : State α} {entry : Entry α} {log : List (Entry α)} {n : Nat} :
      Occurs g q ⟨s, some (entry, []), log, n⟩ → Occurs g q ⟨s, none, log, n⟩

section Moments
variable [Cost α] {g : Network α π} {q : Query α} {s t : State α} {entry : Entry α}
  {queue : Frontier α} {e : Edge α} {es : List (Edge α)} {log : List (Entry α)} {n : Nat}

open Moment (Occurs)

/-- Some of the edges that are left are followed. -/
theorem Moment.Occurs.follow {left : List (Edge α)}
    (h : Occurs g q ⟨s, some (entry, es ++ left), log, n⟩) :
    ∃ n', Occurs g q ⟨es.foldl (State.relax q entry) s, some (entry, left), log, n'⟩ ∧ n ≤ n' := by
  induction es generalizing s n with
  | nil => exact ⟨n, h, Nat.le_refl n⟩
  | cons e es ih =>
    by_cases hlt : entry.cost + e.cost q.objective < s.bestOf e.target
    · obtain ⟨n', h', hle⟩ := ih (h.reach hlt)
      exact ⟨n', h', by omega⟩
    · exact ih (h.pass hlt)

theorem Moment.Occurs.step (h : Occurs g q ⟨s, none, log, n⟩) (hs : State.step g q s = .running t) :
    ∃ log' n', Occurs g q ⟨t, none, log', n'⟩ ∧ n < n' := by
  obtain ⟨entry, queue, ⟨hd, rfl⟩ | ⟨hx, rfl⟩⟩ := State.step_eq_running_iff.1 hs
  · exact ⟨log, n + 1, h.drop hd, Nat.lt_succ_self n⟩
  · have hall := h.expand hx
    rw [← List.append_nil (g.out entry.node)] at hall
    obtain ⟨n', h', hle⟩ := hall.follow
    exact ⟨entry :: log, n', h'.done, hle⟩

/-- What steps lead to occurs, and each of them has changed the frontier. -/
theorem Moment.Occurs.advance (h : Occurs g q ⟨s, none, log, n⟩) {m : Nat}
    (hs : State.advance g q m s = .running t) :
    ∃ log' n', Occurs g q ⟨t, none, log', n'⟩ ∧ n + m ≤ n' := by
  induction m generalizing s log n with
  | zero =>
    cases hs
    exact ⟨log, n, h, Nat.le_refl n⟩
  | succ m ih =>
    unfold State.advance at hs
    cases hstep : State.step g q s with
    | stopped r =>
      rw [hstep] at hs
      cases hs
    | running t' =>
      rw [hstep] at hs
      obtain ⟨log₁, n₁, h₁, hlt⟩ := h.step hstep
      obtain ⟨log₂, n₂, h₂, hle⟩ := ih h₁ hs
      exact ⟨log₂, n₂, h₂, by omega⟩

/-- Steps lead to a state, or lead to where a node is expanded whose edges have been followed but for
those that are left. -/
def State.Led (g : Network α π) (q : Query α) (s : State α) :
    Option (Entry α × List (Edge α)) → Prop
  | none => ∃ n, State.advance g q n (State.start g q) = .running s
  | some (entry, left) => ∃ n t queue followed, State.advance g q n (State.start g q) = .running t ∧
      t.Expands q entry queue ∧ g.out entry.node = followed ++ left ∧
      s = followed.foldl (State.relax q entry) { t with queue, steps := t.steps + 1 }

theorem Moment.Occurs.led {m : Moment α} (h : Occurs g q m) : m.state.Led g q m.under := by
  have hedge {s : State α} {entry : Entry α} {e : Edge α} {es : List (Edge α)}
      (ih : s.Led g q (some (entry, e :: es))) :
      (State.relax q entry s e).Led g q (some (entry, es)) := by
    obtain ⟨k, t, queue, followed, hk, hx, hout, rfl⟩ := ih
    exact ⟨k, t, queue, followed ++ [e], hk, hx, by simp [hout], by simp⟩
  induction h with
  | start => exact ⟨0, rfl⟩
  | drop _ hd ih =>
    obtain ⟨k, hk⟩ := ih
    refine ⟨k + 1, (State.advance_succ hk).trans ?_⟩
    exact State.step_eq_running_iff.2 ⟨_, _, .inl ⟨hd, rfl⟩⟩
  | expand _ hx ih =>
    obtain ⟨k, hk⟩ := ih
    exact ⟨k, _, _, [], hk, hx, rfl, rfl⟩
  | reach _ _ ih => exact hedge ih
  | pass _ _ ih => exact hedge ih
  | done _ ih =>
    obtain ⟨k, t, queue, followed, hk, hx, hout, rfl⟩ := ih
    rw [List.append_nil] at hout
    rw [← hout]
    refine ⟨k + 1, (State.advance_succ hk).trans ?_⟩
    exact State.step_eq_running_iff.2 ⟨_, _, .inr ⟨hx, rfl⟩⟩

/-- The moments are those of the loop, between two steps and within one. -/
theorem occurs_iff (s : State α) (under : Option (Entry α × List (Edge α))) :
    (∃ log n, Occurs g q ⟨s, under, log, n⟩) ↔ s.Led g q under := by
  constructor
  · rintro ⟨log, n, h⟩
    exact h.led
  · intro h
    cases under with
    | none =>
      obtain ⟨k, hk⟩ := h
      obtain ⟨log, n, h', -⟩ := Occurs.start.advance hk
      exact ⟨log, n, h'⟩
    | some under =>
      obtain ⟨entry, left⟩ := under
      obtain ⟨k, t, queue, followed, hk, hx, hout, rfl⟩ := h
      obtain ⟨log, n, h', -⟩ := Occurs.start.advance hk
      have hall := h'.expand hx
      rw [hout] at hall
      obtain ⟨n', h'', -⟩ := hall.follow
      exact ⟨entry :: log, n', h''⟩

end Moments

/-! ## What holds at each moment -/

/-- What the paths that visit no node twice cost from the source to a node. -/
def simpleCosts [Cost α] (g : Network α π) (q : Query α) (v : NodeId) : Set α :=
  { c | ∃ es, g.Walk q.source es v ∧ (visited q.source es).Nodup ∧ total q.objective es = c }

section Invariant
variable [Cost α] [LawfulCost α] {g : Network α π} {q : Query α} {s : State α} {entry : Entry α}
  {queue : Frontier α} {e : Edge α} {es : List (Edge α)} {log : List (Entry α)} {n : Nat}

attribute [local instance] LawfulCost.order

/-- The search is between two steps, or follows the edges that are left. -/
def Moment.Underway (g : Network α π) (q : Query α) (m : Moment α) : Prop :=
  match m.under with
  | none => Search g q m.state
  | some (entry, left) => Following g q entry left m.state

theorem Moment.Underway.reached {m : Moment α} (h : m.Underway g q) : Reached g q m.state := by
  unfold Moment.Underway at h
  split at h
  · exact Search.reached h
  · exact h.toExpanding.reached

/-- What a search has done when it has expanded some entries and changed the frontier so many times. -/
structure Recorded (g : Network α π) (q : Query α) (s : State α) (log : List (Entry α)) (n : Nat) :
    Prop where
  simple : ∀ y ∈ log, y.cost ∈ simpleCosts g q y.node
  falling : log.Pairwise fun later earlier => later.node = earlier.node → later.cost < earlier.cost
  above : ∀ y ∈ log, s.bestOf y.node ≤ y.cost
  distinct : ((log ++ s.queue.entries).map fun y => (y.node, y.cost)).Nodup
  linked : ∀ v, s.prevOf v ≠ none → s.bestOf v < Cost.infinite
  -- A promising walk counts twice, for the entry that is put in and for taking it out again.
  changes : n + 2 * (promising g q s).card + s.queue.entries.length + 2 ≤ 2 * g.patience

namespace Recorded

theorem start (g : Network α π) (q : Query α) : Recorded g q (State.start g q) [] 1 where
  simple _ hy := by cases hy
  falling := .nil
  above _ hy := by cases hy
  distinct := by
    rw [List.nil_append, State.entries_start]
    exact List.nodup_singleton _
  linked v hv := absurd (State.prevOf_start g v) hv
  changes := by
    have hlt := potential_start g q
    unfold potential at hlt
    rw [State.entries_start, List.length_singleton] at hlt ⊢
    omega

/-- Taking an entry out changes the frontier, and nothing else. -/
theorem drop (h : Recorded g q s log n) (hp : s.queue.pop? = some (entry, queue)) (steps : Nat) :
    Recorded g q { s with queue, steps } log (n + 1) where
  simple := h.simple
  falling := h.falling
  above := h.above
  distinct := by
    have hperm : (log ++ s.queue.entries).Perm (entry :: (log ++ queue.entries)) :=
      ((Frontier.pop?_perm hp).append_left log).trans List.perm_middle
    exact (((hperm.map _).nodup_iff).1 h.distinct).of_cons
  linked := h.linked
  changes := by
    have hlen : s.queue.entries.length = queue.entries.length + 1 := (Frontier.pop?_perm hp).length_eq
    have hpro : promising g q { s with queue, steps } = promising g q s := rfl
    have hle := h.changes
    rw [hpro]
    simp only
    omega

/-- A node is expanded for less than ever before. -/
theorem expand (h : Recorded g q s log n) (hp : s.queue.pop? = some (entry, queue)) {steps : Nat}
    (hx : Expanding g q entry { s with queue, steps }) :
    Recorded g q { s with queue, steps } (entry :: log) (n + 1) := by
  have hbest : s.bestOf entry.node = entry.cost := hx.cost
  have hperm : (log ++ s.queue.entries).Perm (entry :: log ++ queue.entries) :=
    ((Frontier.pop?_perm hp).append_left log).trans List.perm_middle
  have hdistinct := ((hperm.map fun y => (y.node, y.cost)).nodup_iff).1 h.distinct
  have hnew : ∀ y ∈ log, entry.node = y.node → entry.cost ≠ y.cost := by
    intro y hy hnode hcost
    rw [List.cons_append, List.map_cons, List.nodup_cons] at hdistinct
    refine hdistinct.1 (List.mem_map.2 ⟨y, List.mem_append_left _ hy, ?_⟩)
    rw [hnode, hcost]
  refine ⟨?_, ?_, ?_, hdistinct, h.linked, (h.drop hp steps).changes⟩
  · intro y hy
    rcases List.mem_cons.1 hy with rfl | hy
    · obtain ⟨es, o⟩ := hx.reached.origin y.node (hx.cost ▸ hx.finite)
      exact ⟨es, o.walk, o.nodup, o.cost.trans hx.cost⟩
    · exact h.simple y hy
  · -- What is kept for the node is no more than it was expanded for, and now it is another cost.
    refine List.pairwise_cons.2 ⟨fun y hy hnode => ?_, h.falling⟩
    have hle : entry.cost ≤ y.cost := hbest ▸ hnode ▸ h.above y hy
    exact lt_of_le_of_ne hle (hnew y hy hnode)
  · intro y hy
    rcases List.mem_cons.1 hy with rfl | hy
    · exact le_of_eq hbest
    · exact h.above y hy

/-- A node is reached anew at a lower cost than all that waits or was expanded for it. -/
theorem follow (h : Recorded g q s log n) (r : Reached g q s) (hq : q.Sound g) {u : NodeId}
    (i : Improves g q s u e) : Recorded g q (s.follow q u e) log (n + 1) where
  simple := h.simple
  falling := h.falling
  above y hy := le_trans (r.follow_le hq i y.node) (h.above y hy)
  distinct := by
    have hperm : (log ++ (s.follow q u e).queue.entries).Perm (_ :: (log ++ s.queue.entries)) :=
      ((Frontier.push_perm s.queue _).append_left log).trans List.perm_middle
    rw [(hperm.map _).nodup_iff, List.map_cons, List.nodup_cons]
    refine ⟨fun hmem => ?_, h.distinct⟩
    obtain ⟨y, hy, heq⟩ := List.mem_map.1 hmem
    obtain ⟨hnode, hcost⟩ := Prod.mk.inj heq
    have hle : s.bestOf y.node ≤ y.cost := by
      rcases List.mem_append.1 hy with hy | hy
      · exact h.above y hy
      · exact (r.waiting y hy).above
    rw [hnode, hcost] at hle
    exact lt_irrefl _ (lt_of_lt_of_le i.lt hle)
  linked v hv := by
    by_cases hve : v = e.target
    · rw [r.bestOf_follow hq i, if_pos hve]
      exact lt_of_lt_of_le i.lt (r.isSum e.target).le_infinite
    · rw [r.prevOf_follow hq i, if_neg hve] at hv
      rw [r.bestOf_follow hq i, if_neg hve]
      exact h.linked v hv
  changes := by
    have hcard := Finset.card_lt_card (promising_follow r hq i)
    have hlen : (s.follow q u e).queue.entries.length = s.queue.entries.length + 1 :=
      (Frontier.push_perm s.queue _).length_eq
    have hle := h.changes
    omega

end Recorded

theorem Moment.Occurs.holds {m : Moment α} (h : m.Occurs g q) (hq : q.Sound g) :
    m.Underway g q ∧ Recorded g q m.state m.expanded m.changes := by
  induction h with
  | start => exact ⟨Search.start hq, .start g q⟩
  | @drop s entry queue log n _ hd ih =>
    obtain ⟨hs, hr⟩ := ih
    exact ⟨Search.drop hs hd.popped hd.stale, hr.drop hd.popped s.steps⟩
  | @expand s entry queue log n _ hx ih =>
    obtain ⟨hs, hr⟩ := ih
    have hexpanding : Expanding g q entry { s with queue, steps := s.steps + 1 } :=
      Search.expanding hs hx.popped hx.fresh (s.steps + 1)
    exact ⟨hexpanding.following hx.ne, hr.expand hx.popped hexpanding⟩
  | @reach s entry e es log n _ hlt ih =>
    obtain ⟨hf, hr⟩ := ih
    have hf : Following g q entry (e :: es) s := hf
    have i : Improves g q s entry.node e :=
      ⟨hf.edges e List.mem_cons_self, hf.cost ▸ hf.finite, hf.cost ▸ hlt⟩
    have hsame : State.relax q entry s e = s.follow q entry.node e := by
      rw [State.relax_of_lt hlt, ← hf.cost]
    exact ⟨(hf.relax hq).1, hsame ▸ hr.follow hf.reached hq i⟩
  | @pass s entry e es log n _ hlt ih =>
    obtain ⟨hf, hr⟩ := ih
    exact ⟨(Following.relax hf hq).1, (State.relax_of_not_lt hlt).symm ▸ hr⟩
  | done _ ih => exact ⟨Following.search ih.1, ih.2⟩

/-! ## Expansions -/

omit [LawfulCost α] in
theorem finite_simpleCosts (hq : q.Sound g) (v : NodeId) : (simpleCosts g q v).Finite := by
  classical
  refine ((words g.edges g.nodeCount).toFinset.image (total q.objective)).finite_toSet.subset ?_
  rintro c ⟨es, hes, hnodup, rfl⟩
  rw [Finset.mem_coe, Finset.mem_image]
  exact ⟨es, List.mem_toFinset.2 (hes.mem_words hq.wellFormed hq.source hnodup), rfl⟩

/-- A node is expanded at most once for each cost of a path that visits no node twice. -/
theorem Recorded.countP_le (h : Recorded g q s log n) (hq : q.Sound g) (v : NodeId) :
    log.countP (·.node = v) ≤ (simpleCosts g q v).ncard := by
  classical
  let mine := log.filter (·.node = v)
  have hmine : ∀ y ∈ mine, y ∈ log ∧ y.node = v := by simp [mine]
  have hnodup : (mine.map (·.cost)).Nodup := by
    refine List.pairwise_map.2 ((h.falling.filter _).imp_of_mem fun hy hz hlt => ?_)
    exact (hlt ((hmine _ hy).2.trans (hmine _ hz).2.symm)).ne
  have hsub : ((mine.map (·.cost)).toFinset : Set α) ⊆ simpleCosts g q v := by
    intro c hc
    obtain ⟨y, hy, rfl⟩ := List.mem_map.1 (List.mem_toFinset.1 hc)
    obtain ⟨hlog, rfl⟩ := hmine y hy
    exact h.simple y hlog
  calc log.countP (·.node = v) = mine.length := List.countP_eq_length_filter
    _ = (mine.map (·.cost)).toFinset.card := by
        rw [List.toFinset_card_of_nodup hnodup, List.length_map]
    _ = ((mine.map (·.cost)).toFinset : Set α).ncard := (Set.ncard_coe_finset _).symm
    _ ≤ (simpleCosts g q v).ncard := Set.ncard_le_ncard hsub (finite_simpleCosts hq v)

/-! ## Predecessors -/

theorem Reached.prevOf_source (r : Reached g q s) : s.prevOf q.source = none := by
  have hfin : s.bestOf q.source < Cost.infinite := r.source ▸ LawfulCost.zero_lt_infinite
  obtain ⟨vs, hvs⟩ := r.trail q.source hfin
  have hnodup := hvs.nodup
  cases hvs with
  | root hr => exact hr
  | step _ ht =>
    rw [List.nodup_append] at hnodup
    exact absurd rfl (hnodup.2.2 _ ht.source_mem _ (List.mem_singleton_self _))

/-- The predecessors are a tree: they lead back from each node to the source, unless the node has none,
and tracing them back visits no node twice. -/
structure State.IsTree (s : State α) (source : NodeId) : Prop where
  root : s.prevOf source = none
  trail : ∀ v, ∃ u, s.Trail u v (s.pathTo v) ∧ (u = source ∨ s.prevOf v = none)
  nodup : ∀ v, (s.pathTo v).Nodup

theorem Recorded.isTree (h : Recorded g q s log n) (r : Reached g q s) (hq : q.Sound g) :
    s.IsTree q.source := by
  have htrail (v : NodeId) : ∃ u, s.Trail u v (s.pathTo v) ∧ (u = q.source ∨ s.prevOf v = none) := by
    by_cases hv : s.bestOf v < Cost.infinite
    · obtain ⟨vs, hvs⟩ := r.trail v hv
      rw [r.pathTo_eq hq hvs]
      exact ⟨q.source, hvs, .inl rfl⟩
    · have hnone : s.prevOf v = none := by
        by_contra hp
        exact hv (h.linked v hp)
      have hroot : s.Trail v v [v] := .root hnone
      have hpath : s.pathTo v = [v] := hroot.trace_eq (Nat.le_add_left 1 _) []
      exact ⟨v, hpath.symm ▸ hroot, .inr hnone⟩
  refine ⟨r.prevOf_source, htrail, fun v => ?_⟩
  obtain ⟨u, hvs, -⟩ := htrail v
  exact hvs.nodup

/-! ## Endings -/

/-- How a search goes on and ends. -/
structure Ends (g : Network α π) (q : Query α) : Prop where
  /-- The loop stops, and the answer is what it stops with. -/
  stops : ∃ n r, State.advance g q n (State.start g q) = .stopped r ∧
    (q.source ≠ q.target → g.search q = r)
  /-- The moments are those that the loop comes to, between two steps and within one. -/
  moments : ∀ s under, (∃ log n, Moment.Occurs g q ⟨s, under, log, n⟩) ↔ State.Led g q s under
  /-- The frontier is changed finitely often. -/
  changes : ∀ m : Moment α, m.Occurs g q → m.changes < 2 * g.patience
  /-- Nodes are expanded for what paths cost that visit no node twice, -/
  simple : ∀ m : Moment α, m.Occurs g q → ∀ y ∈ m.expanded, y.cost ∈ simpleCosts g q y.node
  /-- each time for less than before, -/
  falling : ∀ m : Moment α, m.Occurs g q →
    m.expanded.Pairwise fun later earlier => later.node = earlier.node → later.cost < earlier.cost
  /-- and so at most once for each of these costs, which are finitely many. -/
  often : ∀ m : Moment α, m.Occurs g q → ∀ v, (simpleCosts g q v).Finite ∧
    m.expanded.countP (·.node = v) ≤ (simpleCosts g q v).ncard
  /-- At each moment the predecessors are a tree. -/
  tree : ∀ m : Moment α, m.Occurs g q → m.state.IsTree q.source

theorem exists_stopped (hq : q.Sound g) :
    ∃ r, State.advance g q (2 * g.patience) (State.start g q) = .stopped r := by
  cases hrun : State.advance g q (2 * g.patience) (State.start g q) with
  | stopped r => exact ⟨r, rfl⟩
  | running t =>
    obtain ⟨log, n, h, hle⟩ := Moment.Occurs.start.advance hrun
    have hchanges := (h.holds hq).2.changes
    simp only at hchanges
    omega

omit [LawfulCost α] in
/-- What the loop stops with is the answer, unless it is not needed. -/
theorem search_of_advance (hs : q.source.index < g.nodeCount) (ht : q.target.index < g.nodeCount)
    (hne : q.source ≠ q.target) {r : Except SearchFault (Found α)}
    (h : State.advance g q (2 * g.patience) (State.start g q) = .stopped r) : g.search q = r := by
  have hround : 2 ≤ State.round := by decide
  obtain ⟨rest, hrest⟩ : ∃ rest, g.patience * State.round = 2 * g.patience + rest := by
    rw [Nat.mul_comm 2]
    exact Nat.exists_eq_add_of_le (Nat.mul_le_mul_left _ hround)
  refine search_of_stopped hs ht hne ?_
  rw [State.advanceRounds_eq, hrest, State.advance_add, h]

end Invariant

/-- Whatever the estimates are, and whether or not there is a limit, a search ends. -/
theorem search_ends [Quantity α] [LawfulCost α] {g : Network α π} {q : Query α} (hg : g.Grown)
    (hw : g.Weighted q.objective) (hs : q.source.index < g.nodeCount)
    (ht : q.target.index < g.nodeCount) : Ends g q := by
  have hq : q.Sound g := ⟨hg.wellFormed, hw, hs⟩
  obtain ⟨r, hr⟩ := exists_stopped hq
  refine ⟨⟨_, r, hr, fun hne => search_of_advance hs ht hne hr⟩, occurs_iff, ?_, ?_, ?_, ?_, ?_⟩
  · intro m h
    have hchanges := (h.holds hq).2.changes
    omega
  · exact fun m h => (h.holds hq).2.simple
  · exact fun m h => (h.holds hq).2.falling
  · exact fun m h v => ⟨finite_simpleCosts hq v, (h.holds hq).2.countP_le hq v⟩
  · intro m h
    obtain ⟨hunder, hrecorded⟩ := h.holds hq
    exact hrecorded.isTree hunder.reached hq

/-- The estimate falls by far more than the road between the two nodes takes. -/
theorem search_ends_oneRoad :
    let g : Network Float Nat := oneRoad 4 5 3
    let q : Query Float := ⟨⟨1⟩, ⟨0⟩, .time, fun v => if v.index = 1 then 1000.0 else 0.0, none⟩
    (g.Grown ∧ g.Weighted q.objective ∧ q.source.index < g.nodeCount ∧ q.target.index < g.nodeCount) ∧
      Ends g q := by
  intro g q
  have hg : g.Grown := oneRoad_grown 4 5 3
  have hw : g.Weighted q.objective := by
    intro v e he
    obtain ⟨-, rfl⟩ := mem_out_oneRoad 4 5 3 he
    exact ⟨by decide +kernel, .inl (by decide +kernel)⟩
  have hn : g.nodeCount = 2 := nodeCount_oneRoad 4 5 3
  have hs : q.source.index < g.nodeCount := by simp [q, hn]
  have ht : q.target.index < g.nodeCount := by simp [q, hn]
  exact ⟨⟨hg, hw, hs, ht⟩, search_ends hg hw hs ht⟩

end RoadRouting.Network
