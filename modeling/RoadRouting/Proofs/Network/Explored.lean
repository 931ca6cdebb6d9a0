import Mathlib.Data.Finset.Card
import RoadRouting.Proofs.Network.Reached

/-!
# What a search has explored

A node that has been reached either waits in the frontier at the cost that is kept for it, or all of
its edges have been followed (`Explored`). So each walk to the target meets a waiting node at no
higher cost than the walk has there (`Search.exists_waiting`), and a search ends: the walks that are
cheaper than what is kept for their ends get fewer with each node that is reached, and the entries of
the frontier get fewer with all else (`potential`).
-/

namespace RoadRouting.Network
set_option autoImplicit false
open Cost (IsWeight IsSum)

variable {α π : Type} [Cost α] [LawfulCost α]

attribute [local instance] LawfulCost.order

/-- The node waits at the cost that is kept for it. -/
def Queued (s : State α) (v : NodeId) : Prop :=
  ∃ y ∈ s.queue.entries, y.node = v ∧ y.cost = s.bestOf v

/-- The edges of the node have been followed. -/
def Followed (g : Network α π) (q : Query α) (s : State α) (v : NodeId) : Prop :=
  v ≠ q.target ∧ ∀ e ∈ g.out v, s.bestOf e.target ≤ s.bestOf v + e.cost q.objective

/-- All nodes that have been reached, but those of a set, wait or have had their edges followed. -/
def Explored (g : Network α π) (q : Query α) (s : State α) (but : NodeId → Prop) : Prop :=
  ∀ v, s.bestOf v < Cost.infinite → ¬ but v → Queued s v ∨ Followed g q s v

/-- A search between two steps. -/
structure Search (g : Network α π) (q : Query α) (s : State α) : Prop where
  reached : Reached g q s
  explored : Explored g q s fun _ => False

/-- A search while it follows the edges of the node of an entry. -/
structure Expanding (g : Network α π) (q : Query α) (entry : Entry α) (s : State α) : Prop where
  reached : Reached g q s
  explored : Explored g q s (· = entry.node)
  finite : entry.cost < Cost.infinite
  cost : s.bestOf entry.node = entry.cost

/-- A search that has followed all edges of the node of an entry but some. -/
structure Following (g : Network α π) (q : Query α) (entry : Entry α) (left : List (Edge α))
    (s : State α) : Prop extends Expanding g q entry s where
  ne : entry.node ≠ q.target
  edges : ∀ e ∈ left, e ∈ g.out entry.node
  followed : ∀ e ∈ g.out entry.node, e ∉ left → s.bestOf e.target ≤ entry.cost + e.cost q.objective

/-- The edges are a walk from the source that is cheaper than what is kept for its end. -/
def Promising (g : Network α π) (q : Query α) (s : State α) (es : List (Edge α)) : Prop :=
  ∃ v, g.Walk q.source es v ∧ total q.objective es < s.bestOf v

open Classical in
/-- The promising walks that are no longer than the network is large. -/
noncomputable def promising (g : Network α π) (q : Query α) (s : State α) : Finset (List (Edge α)) :=
  (words g.edges g.nodeCount).toFinset.filter (Promising g q s)

/-- How many steps a search has left at most. -/
noncomputable def potential (g : Network α π) (q : Query α) (s : State α) : Nat :=
  (promising g q s).card + s.queue.entries.length

variable {g : Network α π} {q : Query α} {s : State α} {u v : NodeId} {e : Edge α}

/-! ## Waiting nodes -/

namespace Search

/-- What a walk has reached is kept at no higher cost, or else a node on the walk waits. -/
theorem waiting_or_le (r : Search g q s) (hq : q.Sound g) {es : List (Edge α)}
    (h : g.Walk q.source es v) (hes : total q.objective es < Cost.infinite) :
    (∃ p t y, es = p ++ t ∧ g.Walk q.source p y.node ∧ g.Walk y.node t v ∧
      y ∈ s.queue.entries ∧ y.cost ≤ total q.objective p) ∨
    s.bestOf v ≤ total q.objective es := by
  induction h with
  | nil => exact .inr (le_of_eq r.reached.source)
  | @snoc es v e h he ih =>
    have hw := hq.weighted v e he
    have hsum : total q.objective (es ++ [e]) = total q.objective es + e.cost q.objective :=
      costFrom_snoc es e
    have hle : total q.objective es ≤ total q.objective (es ++ [e]) :=
      h.snoc he |>.total_prefix_le hq.weighted (List.prefix_append _ _)
    rcases ih (lt_of_le_of_lt hle hes) with ⟨p, t, y, rfl, hp, ht, hy, hc⟩ | hv
    · exact .inl ⟨p, t ++ [e], y, List.append_assoc .., hp, ht.snoc he, hy, hc⟩
    · have hfin : s.bestOf v < Cost.infinite := lt_of_le_of_lt hv (lt_of_le_of_lt hle hes)
      rcases r.explored v hfin not_false with ⟨y, hy, rfl, hc⟩ | hf
      · exact .inl ⟨es, [e], y, rfl, h, .single he, hy, hc ▸ hv⟩
      · refine .inr ?_
        calc s.bestOf e.target ≤ s.bestOf v + e.cost q.objective := hf.2 e he
          _ ≤ total q.objective es + e.cost q.objective :=
              (r.reached.isSum v).add_le_add (h.isSum hq.weighted) hw hv
          _ = total q.objective (es ++ [e]) := hsum.symm

/-- While a walk to the target is not infinitely expensive, a node on it waits. -/
theorem exists_waiting (r : Search g q s) (hq : q.Sound g) {es : List (Edge α)}
    (h : g.Walk q.source es q.target) (hes : total q.objective es < Cost.infinite) :
    ∃ p t y, es = p ++ t ∧ g.Walk q.source p y.node ∧ g.Walk y.node t q.target ∧
      y ∈ s.queue.entries ∧ y.cost ≤ total q.objective p := by
  rcases r.waiting_or_le hq h hes with hy | hle
  · exact hy
  · rcases r.explored q.target (lt_of_le_of_lt hle hes) not_false with ⟨y, hy, hyt, hc⟩ | hf
    · refine ⟨es, [], y, (List.append_nil es).symm, hyt ▸ h, hyt ▸ .nil, hy, ?_⟩
      rw [hc]
      exact hle
    · exact absurd rfl hf.1

end Search

/-! ## Following an edge -/

/-- A node that is reached anew waits. -/
theorem Reached.queued_target (r : Reached g q s) (hq : q.Sound g) (i : Improves g q s u e) :
    Queued (s.follow q u e) e.target := by
  refine ⟨_, State.mem_entries_reach.2 (.inl rfl), rfl, ?_⟩
  rw [r.bestOf_follow hq i, if_pos rfl]

theorem Queued.follow (h : Queued s v) (r : Reached g q s) (hq : q.Sound g) (i : Improves g q s u e)
    (hve : v ≠ e.target) : Queued (s.follow q u e) v := by
  obtain ⟨y, hy, hyv, hc⟩ := h
  refine ⟨y, State.mem_entries_reach.2 (.inr hy), hyv, ?_⟩
  rw [r.bestOf_follow hq i, if_neg hve, hc]

theorem Explored.follow (r : Reached g q s) (hq : q.Sound g) (i : Improves g q s u e)
    {but : NodeId → Prop} (h : Explored g q s but) : Explored g q (s.follow q u e) but := by
  intro v hv hb
  by_cases hve : v = e.target
  · rw [hve]
    exact .inl (r.queued_target hq i)
  · have hsame : (s.follow q u e).bestOf v = s.bestOf v := by rw [r.bestOf_follow hq i, if_neg hve]
    rw [hsame] at hv
    rcases h v hv hb with hqueued | ⟨hne, hf⟩
    · exact .inl (hqueued.follow r hq i hve)
    · refine .inr ⟨hne, ?_⟩
      intro f hf'
      rw [hsame]
      exact le_trans (r.follow_le hq i f.target) (hf f hf')

theorem promising_mono {t : State α} (h : ∀ v, t.bestOf v ≤ s.bestOf v) :
    promising g q t ⊆ promising g q s := by
  intro es hes
  simp only [promising, Finset.mem_filter] at hes ⊢
  obtain ⟨hmem, v, hv, hlt⟩ := hes
  exact ⟨hmem, v, hv, lt_of_lt_of_le hlt (h v)⟩

/-- The walk by which a node is reached anew is promising no longer. -/
theorem promising_follow (r : Reached g q s) (hq : q.Sound g) (i : Improves g q s u e) :
    promising g q (s.follow q u e) ⊂ promising g q s := by
  obtain ⟨es, o⟩ := r.origin u i.finite
  have o' := r.origin_follow hq i o
  have hmem := o'.walk.mem_words hq.wellFormed hq.source o'.nodup
  rw [Finset.ssubset_iff_of_subset (promising_mono (r.follow_le hq i))]
  refine ⟨es ++ [e], ?_, ?_⟩
  · simp only [promising, Finset.mem_filter, List.mem_toFinset]
    refine ⟨hmem, e.target, o'.walk, ?_⟩
    have hlt := i.lt
    rw [← o.cost] at hlt
    rw [total, costFrom_snoc]
    exact hlt
  · simp only [promising, Finset.mem_filter, not_and]
    rintro - ⟨v, hv, hlt⟩
    obtain rfl := hv.unique o'.walk
    rw [o'.cost] at hlt
    exact lt_irrefl _ hlt

theorem potential_follow (r : Reached g q s) (hq : q.Sound g) (i : Improves g q s u e) :
    potential g q (s.follow q u e) ≤ potential g q s := by
  have hcard := Finset.card_lt_card (promising_follow r hq i)
  have hlen : (s.follow q u e).queue.entries.length = s.queue.entries.length + 1 :=
    (Frontier.push_perm s.queue _).length_eq
  unfold potential
  omega

/-! ## Expanding a node -/

namespace Expanding
variable {entry : Entry α}

/-- One edge. -/
theorem relax (h : Expanding g q entry s) (hq : q.Sound g) (he : e ∈ g.out entry.node) :
    Expanding g q entry (State.relax q entry s e) ∧
    (State.relax q entry s e).bestOf e.target ≤ entry.cost + e.cost q.objective ∧
    (∀ x, (State.relax q entry s e).bestOf x ≤ s.bestOf x) ∧
    potential g q (State.relax q entry s e) ≤ potential g q s := by
  by_cases hlt : entry.cost + e.cost q.objective < s.bestOf e.target
  · have i : Improves g q s entry.node e := ⟨he, h.cost ▸ h.finite, h.cost ▸ hlt⟩
    rw [State.relax_of_lt hlt, ← h.cost]
    refine ⟨⟨h.reached.follow hq i, h.explored.follow h.reached hq i, h.finite, ?_⟩, ?_,
      h.reached.follow_le hq i, potential_follow h.reached hq i⟩
    · rw [h.reached.bestOf_follow hq i, if_neg (h.reached.ne_target hq i (le_refl _)), h.cost]
    · rw [h.reached.bestOf_follow hq i, if_pos rfl]
  · rw [State.relax_of_not_lt hlt]
    have hsum : IsSum (entry.cost + e.cost q.objective) :=
      h.cost ▸ (h.reached.isSum entry.node).add (hq.weighted _ e he)
    exact ⟨h, (h.reached.isSum _).le_of_not_lt hsum hlt, fun _ => le_refl _, le_refl _⟩

/-- At first all edges are left. -/
theorem following (h : Expanding g q entry s) (hne : entry.node ≠ q.target) :
    Following g q entry (g.out entry.node) s :=
  ⟨h, hne, fun _ he => he, fun _ he hnot => absurd he hnot⟩

end Expanding

namespace Following
variable {entry : Entry α} {es : List (Edge α)}

/-- One edge less is left. -/
theorem relax (h : Following g q entry (e :: es) s) (hq : q.Sound g) :
    Following g q entry es (State.relax q entry s e) ∧
    potential g q (State.relax q entry s e) ≤ potential g q s := by
  obtain ⟨h', hle, hmono, hpot⟩ := h.toExpanding.relax hq (h.edges e List.mem_cons_self)
  refine ⟨⟨h', h.ne, fun f hf => h.edges f (List.mem_cons_of_mem _ hf), ?_⟩, hpot⟩
  intro f hf hleft
  by_cases hfe : f = e
  · rw [hfe]
    exact hle
  · have hnot : f ∉ e :: es := by simp [hfe, hleft]
    exact le_trans (hmono f.target) (h.followed f hf hnot)

/-- When all edges have been followed the node is explored as well. -/
theorem search (h : Following g q entry [] s) : Search g q s := by
  refine ⟨h.reached, ?_⟩
  intro v hv _
  by_cases hve : v = entry.node
  · subst hve
    refine .inr ⟨h.ne, fun e he => ?_⟩
    rw [h.cost]
    exact h.followed e he List.not_mem_nil
  · exact h.explored v hv hve

theorem foldl (h : Following g q entry es s) (hq : q.Sound g) :
    Search g q (es.foldl (State.relax q entry) s) ∧
    potential g q (es.foldl (State.relax q entry) s) ≤ potential g q s := by
  induction es generalizing s with
  | nil => exact ⟨h.search, le_refl _⟩
  | cons e es ih =>
    obtain ⟨h', hpot⟩ := h.relax hq
    obtain ⟨r, hpot'⟩ := ih h'
    exact ⟨r, le_trans hpot' hpot⟩

end Following

/-- Following all edges of a node explores it. -/
theorem Expanding.search {entry : Entry α} (hq : q.Sound g) (h : Expanding g q entry s)
    (hne : entry.node ≠ q.target) :
    Search g q ((g.out entry.node).foldl (State.relax q entry) s) ∧
    potential g q ((g.out entry.node).foldl (State.relax q entry) s) ≤ potential g q s :=
  (h.following hne).foldl hq

/-! ## Steps -/

namespace Search
variable {entry : Entry α} {queue : Frontier α}

omit [LawfulCost α] in
theorem potential_pop (h : s.queue.pop? = some (entry, queue)) (steps : Nat) :
    potential g q { s with queue, steps } < potential g q s := by
  have hlen : s.queue.entries.length = queue.entries.length + 1 := (Frontier.pop?_perm h).length_eq
  have hpro : promising g q { s with queue, steps } = promising g q s := rfl
  unfold potential
  rw [hpro, hlen]
  exact Nat.lt_succ_self _

omit [LawfulCost α] in
/-- A node goes on waiting when an entry is taken that does not stand for what is kept for it. -/
theorem queued_pop (h : s.queue.pop? = some (entry, queue)) (hv : Queued s v)
    (hne : entry.node = v → entry.cost ≠ s.bestOf v) (steps : Nat) :
    Queued { s with queue, steps } v := by
  obtain ⟨y, hy, hyv, hc⟩ := hv
  rcases (Frontier.mem_pop? h).1 hy with rfl | hy
  · exact absurd hc (hne hyv)
  · exact ⟨y, hy, hyv, hc⟩

/-- An entry of a node that has been reached more cheaply since can be dropped. -/
theorem drop (r : Search g q s) (h : s.queue.pop? = some (entry, queue))
    (hlt : s.bestOf entry.node < entry.cost) : Search g q { s with queue } := by
  refine ⟨r.reached.pop h s.steps, ?_⟩
  intro v hv hb
  have hne : entry.node = v → entry.cost ≠ s.bestOf v := by
    rintro rfl hc
    rw [hc] at hlt
    exact LawfulCost.lt_irrefl _ hlt
  exact (r.explored v hv hb).imp_left fun hqueued => queued_pop h hqueued hne s.steps

/-- Any other entry stands for what is kept for its node. -/
theorem expanding (r : Search g q s) (h : s.queue.pop? = some (entry, queue))
    (hlt : ¬ s.bestOf entry.node < entry.cost) (steps : Nat) :
    Expanding g q entry { s with queue, steps } := by
  have w := r.reached.popped h
  refine ⟨r.reached.pop h steps, ?_, w.finite, ?_⟩
  · intro v hv hb
    have hne : entry.node = v → entry.cost ≠ s.bestOf v := fun hv => absurd hv.symm hb
    exact (r.explored v hv not_false).imp_left fun hqueued => queued_pop h hqueued hne steps
  · exact le_antisymm w.above (w.isSum.le_of_not_lt (r.reached.isSum _) hlt)

/-- At first all that has been reached waits. -/
theorem queued_start (hq : q.Sound g) (hv : (State.start g q).bestOf v < Cost.infinite) :
    Queued (State.start g q) v := by
  have hvs : v = q.source := by
    by_contra hne
    rw [State.bestOf_start hq.source, if_neg hne] at hv
    exact LawfulCost.lt_irrefl _ hv
  refine ⟨⟨q.source, 0, q.estimate q.source⟩, ?_, hvs.symm, ?_⟩
  · rw [State.entries_start]
    exact List.mem_singleton_self _
  · rw [State.bestOf_start hq.source, if_pos hvs]

theorem start (hq : q.Sound g) : Search g q (State.start g q) :=
  ⟨Reached.start hq, fun _ hv _ => .inl (queued_start hq hv)⟩

end Search

omit [Cost α] [LawfulCost α] in
theorem patience_eq (g : Network α π) :
    g.patience = (g.edges.length + 1) ^ g.nodeCount + 2 := by
  have hlen : g.nodes.foldl (fun n v => n + v.out.length) 0 = g.edges.length := by
    rw [edges, List.length_flatMap, ← Array.foldl_toList, List.sum_eq_foldl, List.foldl_map]
  rw [patience, hlen]
  rfl

omit [LawfulCost α] in
/-- A search begins with less than `patience` steps to go. -/
theorem potential_start (g : Network α π) (q : Query α) :
    potential g q (State.start g q) < g.patience := by
  classical
  have hcard : (promising g q (State.start g q)).card ≤ (g.edges.length + 1) ^ g.nodeCount :=
    calc (promising g q (State.start g q)).card
        ≤ (words g.edges g.nodeCount).toFinset.card := Finset.card_filter_le _ _
      _ ≤ (words g.edges g.nodeCount).length := List.toFinset_card_le _
      _ ≤ (g.edges.length + 1) ^ g.nodeCount := length_words_le _ _
  have hlen : (State.start g q).queue.entries.length = 1 := by
    rw [State.entries_start]
    rfl
  rw [patience_eq, potential]
  omega

end RoadRouting.Network
