import Mathlib.Logic.Function.Basic
import Mathlib.Logic.Relation
import RoadRouting.Proofs.Network.ShortestPath

/-!
# What nodes were expanded for

A search whose estimates are too high expands nodes that it reaches more cheaply later on, and what it
reached through them goes on waiting at what was paid then. The path and the cost that it answers belong
together all the same, and the reason is a ledger of the costs for which each node was expanded last
(`Ledger`). A node is reached for what was paid for the one before it and the edge between them, and what
was paid for a node divides the frontier (`Ledger.sides`): either nothing that was reached through the
node comes out earlier than it did, or nothing else does, and then no less has been found for it since.
Whatever comes out next lies on one of the two sides. When it is the target, a node on the way to it
that was reached more cheaply since would have come out before it (`Ledger.settled`).
-/

namespace RoadRouting.Network
set_option autoImplicit false
open Cost (IsWeight IsSum)
open Relation (ReflTransGen TransGen)

variable {α π : Type}

/-! ## The way to a node -/

namespace State
variable {s : State α} {u v w x : NodeId}

/-- One node is the predecessor of another. -/
def Precedes (s : State α) (v w : NodeId) : Prop := s.prevOf w = some v

/-- A node was reached through another one. -/
abbrev Through (s : State α) : NodeId → NodeId → Prop := TransGen s.Precedes

/-- A node was reached through another one, or is that one. -/
abbrev OnWay (s : State α) : NodeId → NodeId → Prop := ReflTransGen s.Precedes

end State

open State (Trail)

section Ledger
variable [Cost α] [LawfulCost α] {g : Network α π} {q : Query α} {s : State α} {u v w x : NodeId}
  {e : Edge α}

attribute [local instance] LawfulCost.order

section Follow
variable (r : Reached g q s) (hq : q.Sound g)
include r hq

theorem Reached.bestOf_le_of_onWay (h : s.OnWay v u) : s.bestOf v ≤ s.bestOf u := by
  induction h with
  | refl => exact le_refl _
  | @tail b c _ hp ih =>
    obtain ⟨e, he, -, hle⟩ := r.tree b c hp
    calc s.bestOf v ≤ s.bestOf b := ih
      _ ≤ s.bestOf b + e.cost q.objective := (r.isSum b).le_add (hq.weighted b e he)
      _ ≤ s.bestOf c := hle

variable (i : Improves g q s u e)
include i

theorem Reached.precedes_follow : (s.follow q u e).Precedes v w ↔
    if w = e.target then v = u else s.Precedes v w := by
  unfold State.Precedes
  rw [r.prevOf_follow hq i]
  split
  · rw [Option.some.injEq, eq_comm]
  · exact Iff.rfl

/-- No node on the way to the one that is expanded is reached anew. -/
theorem Reached.ne_target_of_onWay (h : s.OnWay v u) : v ≠ e.target :=
  r.ne_target hq i (r.bestOf_le_of_onWay hq h)

/-- So the way to it stays as it is. -/
theorem Reached.onWay_follow : (s.follow q u e).OnWay v u ↔ s.OnWay v u := by
  constructor
  · intro h
    induction h using ReflTransGen.head_induction_on with
    | refl => exact .refl
    | @head a c hp _ ih =>
      rw [r.precedes_follow hq i, if_neg (r.ne_target_of_onWay hq i ih)] at hp
      exact .head hp ih
  · intro h
    induction h using ReflTransGen.head_induction_on with
    | refl => exact .refl
    | @head a c hp hrest ih =>
      refine .head ?_ ih
      rw [r.precedes_follow hq i, if_neg (r.ne_target_of_onWay hq i hrest)]
      exact hp

/-- What is reached anew is reached through all nodes on the way to the one that is expanded. -/
theorem Reached.through_target (h : s.OnWay v u) : (s.follow q u e).Through v e.target := by
  refine TransGen.tail' ((r.onWay_follow hq i).2 h) ?_
  rw [r.precedes_follow hq i, if_pos rfl]

/-- What was reached through one of them still is. -/
theorem Reached.through_follow (h : s.OnWay v u) (hw : s.Through v w) :
    (s.follow q u e).Through v w := by
  induction hw with
  | @single c hp =>
    by_cases hc : c = e.target
    · rw [hc]
      exact r.through_target hq i h
    · apply TransGen.single
      rwa [r.precedes_follow hq i, if_neg hc]
  | @tail b c _ hp ih =>
    by_cases hc : c = e.target
    · rw [hc]
      exact r.through_target hq i h
    · refine .tail ih ?_
      rwa [r.precedes_follow hq i, if_neg hc]

/-- Nothing else is reached through any other node. -/
theorem Reached.through_of_follow (h : ¬ s.OnWay v u) (hw : (s.follow q u e).Through v w) :
    w ≠ e.target ∧ s.Through v w := by
  induction hw with
  | @single c hp =>
    rw [r.precedes_follow hq i] at hp
    split at hp
    · rw [hp] at h
      exact absurd .refl h
    · rename_i hc
      exact ⟨hc, .single hp⟩
  | @tail b c _ hp ih =>
    rw [r.precedes_follow hq i] at hp
    split at hp
    · rw [hp] at ih
      exact absurd ih.2.to_reflTransGen h
    · rename_i hc
      exact ⟨hc, .tail ih.2 hp⟩

end Follow

/-! ## The ledger -/

/-- An entry does not come before a score. -/
def Entry.NotBelow (y : Entry α) (score : α) : Prop := Cost.rank y.score score ≠ .lt

theorem Entry.NotBelow.trans {y z : Entry α} {score : α} (h : y.NotBelow z.score)
    (h' : z.NotBelow score) : y.NotBelow score := by
  have := LawfulCost.rank_trans (α := α)
  intro hlt
  apply h
  refine Std.TransCmp.lt_of_lt_of_isLE hlt ?_
  rw [← Std.OrientedCmp.isGE_iff_isLE, Ordering.isGE_iff_ne_lt]
  exact h'

/-- Nothing that was reached through a node comes before a score. -/
def State.NoneThrough (s : State α) (v : NodeId) (score : α) : Prop :=
  ∀ y ∈ s.queue.entries, s.Through v y.node → y.NotBelow score

/-- Nothing else does. -/
def State.NoneElse (s : State α) (v : NodeId) (score : α) : Prop :=
  ∀ y ∈ s.queue.entries, ¬ s.Through v y.node → y.NotBelow score

/-- The costs for which nodes were expanded last: the target was not, no more is kept for a node than was
paid for it, and one that is kept at less waits. -/
structure Paid (q : Query α) (s : State α) (paid : NodeId → Option α) : Prop where
  target : paid q.target = none
  above : ∀ v c, paid v = some c → IsSum c ∧ c < Cost.infinite ∧ s.bestOf v ≤ c
  waiting : ∀ v, s.bestOf v < Cost.infinite → Queued s v ∨ paid v = some (s.bestOf v)

/-- What was paid for nodes accounts for what was reached through them. -/
structure Ledger (g : Network α π) (q : Query α) (s : State α) (paid : NodeId → Option α) : Prop
    extends Paid q s paid where
  link : ∀ v w, s.prevOf w = some v → ∃ c, paid v = some c ∧
    ∃ e ∈ g.out v, e.target = w ∧ s.bestOf w = c + e.cost q.objective
  sides : ∀ v c, paid v = some c → s.NoneThrough v (c + q.estimate v) ∨
    s.bestOf v = c ∧ s.NoneElse v (c + q.estimate v)

/-- So it does while the edges of a node are followed, but for what was reached along those that are
left. -/
structure Posting (g : Network α π) (q : Query α) (s : State α) (paid : NodeId → Option α) (u : NodeId)
    (rest : List (Edge α)) : Prop extends Paid q s paid where
  current : paid u = some (s.bestOf u)
  link : ∀ v w, s.prevOf w = some v → ∃ c, paid v = some c ∧ ∃ e ∈ g.out v, e.target = w ∧
    (s.bestOf w = c + e.cost q.objective ∨ v = u ∧ e ∈ rest ∧ c + e.cost q.objective ≤ s.bestOf w)
  onWay : ∀ v c, paid v = some c → s.OnWay v u →
    s.bestOf v = c ∧ s.NoneElse v (c + q.estimate v)
  aside : ∀ v c, paid v = some c → ¬ s.OnWay v u → s.NoneThrough v (c + q.estimate v)

/-- Adding an estimate keeps finite costs apart, and nothing is added by nothing. -/
structure Query.Strict (q : Query α) : Prop where
  source : 0 + q.estimate q.source = q.estimate q.source
  lt : ∀ v (a b : α), a < b → b < Cost.infinite →
    Cost.rank (a + q.estimate v) (b + q.estimate v) = .lt

variable {paid : NodeId → Option α} {entry : Entry α} {queue : Frontier α} {rest : List (Edge α)}

/-! ## Following an edge -/

theorem Paid.follow (p : Paid q s paid) (r : Reached g q s) (hq : q.Sound g)
    (i : Improves g q s u e) : Paid q (s.follow q u e) paid where
  target := p.target
  above v c hc := by
    obtain ⟨hsum, hfin, hle⟩ := p.above v c hc
    exact ⟨hsum, hfin, le_trans (r.follow_le hq i v) hle⟩
  waiting v hv := by
    by_cases hve : v = e.target
    · rw [hve]
      exact .inl (r.queued_target hq i)
    · rw [r.bestOf_follow hq i, if_neg hve] at hv ⊢
      exact (p.waiting v hv).imp_left fun hqueued => hqueued.follow r hq i hve

namespace Posting

/-- An edge reaches its target more cheaply. -/
theorem follow (p : Posting g q s paid u (e :: rest)) (r : Reached g q s) (hq : q.Sound g)
    (i : Improves g q s u e) : Posting g q (s.follow q u e) paid u rest where
  toPaid := p.toPaid.follow r hq i
  current := by
    rw [r.bestOf_follow hq i, if_neg (r.ne_target_of_onWay hq i .refl)]
    exact p.current
  link v w h := by
    rw [r.prevOf_follow hq i] at h
    rw [r.bestOf_follow hq i]
    by_cases hw : w = e.target
    · rw [if_pos hw, Option.some.injEq] at h
      subst h
      rw [if_pos hw]
      exact ⟨_, p.current, e, i.edge, hw.symm, .inl rfl⟩
    · rw [if_neg hw] at h ⊢
      obtain ⟨c, hc, f, hf, hfw, hcost⟩ := p.link v w h
      refine ⟨c, hc, f, hf, hfw, hcost.imp_right ?_⟩
      rintro ⟨hv, hmem, hle⟩
      rcases List.mem_cons.1 hmem with rfl | hmem
      · exact absurd hfw.symm hw
      · exact ⟨hv, hmem, hle⟩
  onWay v c hc h := by
    have h := (r.onWay_follow hq i).1 h
    obtain ⟨hbest, hnone⟩ := p.onWay v c hc h
    constructor
    · rw [r.bestOf_follow hq i, if_neg (r.ne_target_of_onWay hq i h)]
      exact hbest
    · intro y hy hnot
      rcases State.mem_entries_reach.1 hy with rfl | hy
      · exact absurd (r.through_target hq i h) hnot
      · exact hnone y hy fun hthrough => hnot (r.through_follow hq i h hthrough)
  aside v c hc h := by
    have h : ¬ s.OnWay v u := fun hway => h ((r.onWay_follow hq i).2 hway)
    intro y hy hthrough
    obtain ⟨hne, hthrough⟩ := r.through_of_follow hq i h hthrough
    rcases State.mem_entries_reach.1 hy with rfl | hy
    · exact absurd rfl hne
    · exact p.aside v c hc h y hy hthrough

/-- An edge does not, and what was reached along it before costs what it would now. -/
theorem skip (p : Posting g q s paid u (e :: rest)) (hq : q.Sound g) (r : Reached g q s)
    (he : e ∈ g.out u) (hnot : ¬ s.bestOf u + e.cost q.objective < s.bestOf e.target) :
    Posting g q s paid u rest where
  toPaid := p.toPaid
  current := p.current
  link v w h := by
    obtain ⟨c, hc, f, hf, hfw, hcost⟩ := p.link v w h
    refine ⟨c, hc, f, hf, hfw, ?_⟩
    rcases hcost with hcost | ⟨rfl, hmem, hle⟩
    · exact .inl hcost
    · rcases List.mem_cons.1 hmem with rfl | hmem
      · obtain rfl : s.bestOf v = c := Option.some.inj (p.current.symm.trans hc)
        rw [hfw] at hnot
        have hsum := (r.isSum v).add (hq.weighted v f he)
        exact .inl (le_antisymm ((r.isSum w).le_of_not_lt hsum hnot) hle)
      · exact .inr ⟨rfl, hmem, hle⟩
  onWay := p.onWay
  aside := p.aside

theorem relax (p : Posting g q s paid entry.node (e :: rest)) (h : Expanding g q entry s)
    (hq : q.Sound g) (he : e ∈ g.out entry.node) :
    Posting g q (State.relax q entry s e) paid entry.node rest := by
  by_cases hlt : entry.cost + e.cost q.objective < s.bestOf e.target
  · have i : Improves g q s entry.node e := ⟨he, h.cost ▸ h.finite, h.cost ▸ hlt⟩
    rw [State.relax_of_lt hlt, ← h.cost]
    exact p.follow h.reached hq i
  · rw [State.relax_of_not_lt hlt]
    exact p.skip hq h.reached he (h.cost ▸ hlt)

theorem foldl (hq : q.Sound g) (es : List (Edge α)) (hes : ∀ e ∈ es, e ∈ g.out entry.node)
    (h : Expanding g q entry s) (p : Posting g q s paid entry.node es) :
    Posting g q (es.foldl (State.relax q entry) s) paid entry.node [] := by
  induction es generalizing s with
  | nil => exact p
  | cons e rest ih =>
    have he := hes e List.mem_cons_self
    exact ih (fun f hf => hes f (List.mem_cons_of_mem _ hf)) (h.relax hq he).1 (p.relax h hq he)

/-- When all edges have been followed the ledger is complete. -/
theorem ledger (p : Posting g q s paid u []) : Ledger g q s paid where
  toPaid := p.toPaid
  link v w h := by
    obtain ⟨c, hc, e, he, hew, hcost | ⟨-, hmem, -⟩⟩ := p.link v w h
    · exact ⟨c, hc, e, he, hew, hcost⟩
    · cases hmem
  sides v c hc := by
    by_cases h : s.OnWay v u
    · exact .inr (p.onWay v c hc h)
    · exact .inl (p.aside v c hc h)

end Posting

/-! ## Taking an entry -/

/-- Nothing that waits comes before what is taken. -/
theorem Reached.notBelow_of_pop (r : Reached g q s) (h : s.queue.pop? = some (entry, queue))
    {y : Entry α} (hy : y ∈ s.queue.entries) : y.NotBelow entry.score := by
  intro hlt
  have hbefore := Entry.before_of_rank hlt
  rw [r.ordered.not_before h hy] at hbefore
  cases hbefore

/-- A node that was reached more cheaply since it was expanded waits, and comes out before anything that
does not come before its last expansion. -/
theorem Paid.settled (p : Paid q s paid) (r : Reached g q s) (hs : q.Strict)
    (h : s.queue.pop? = some (entry, queue)) {c : α} (hc : paid v = some c)
    (hentry : entry.NotBelow (c + q.estimate v)) : s.bestOf v = c := by
  obtain ⟨-, hfin, hle⟩ := p.above v c hc
  by_contra hne
  have hlt : s.bestOf v < c := lt_of_le_of_ne hle hne
  rcases p.waiting v (lt_trans hlt hfin) with ⟨y, hy, rfl, hcost⟩ | hpaid
  · have hscore : y.score = s.bestOf y.node + q.estimate y.node := by
      rw [Search.score_eq hs.source (r.waiting y hy), hcost]
    apply (r.notBelow_of_pop h hy).trans hentry
    rw [hscore]
    exact hs.lt y.node _ _ hlt hfin
  · rw [hc] at hpaid
    exact hne (Option.some.inj hpaid).symm

namespace Ledger

theorem drop (l : Ledger g q s paid) (h : s.queue.pop? = some (entry, queue))
    (hlt : s.bestOf entry.node < entry.cost) : Ledger g q { s with queue } paid where
  target := l.target
  above := l.above
  waiting v hv := by
    refine (l.waiting v hv).imp_left fun hqueued => Search.queued_pop h hqueued ?_ s.steps
    rintro rfl hc
    rw [hc] at hlt
    exact LawfulCost.lt_irrefl _ hlt
  link := l.link
  sides v c hc := by
    have hmem : ∀ y ∈ queue.entries, y ∈ s.queue.entries := fun y hy =>
      (Frontier.mem_pop? h).2 (.inr hy)
    refine (l.sides v c hc).imp ?_ ?_
    · exact fun hnone y hy => hnone y (hmem y hy)
    · exact fun ⟨hbest, hnone⟩ => ⟨hbest, fun y hy => hnone y (hmem y hy)⟩

/-- The node of an entry is paid for. -/
theorem pay (l : Ledger g q s paid) (r : Search g q s) (h : s.queue.pop? = some (entry, queue))
    (hlt : ¬ s.bestOf entry.node < entry.cost) (hne : entry.node ≠ q.target) (steps : Nat) :
    Paid q { s with queue, steps } (Function.update paid entry.node (some entry.cost)) where
  target := by
    rw [Function.update_of_ne hne.symm]
    exact l.target
  above v c hc := by
    have hwait := r.reached.popped h
    by_cases hv : v = entry.node
    · subst hv
      rw [Function.update_self, Option.some.injEq] at hc
      subst hc
      exact ⟨hwait.isSum, hwait.finite, hwait.above⟩
    · rw [Function.update_of_ne hv] at hc
      exact l.above v c hc
  waiting v hv := by
    by_cases hve : v = entry.node
    · subst hve
      rw [Function.update_self, ← (r.expanding h hlt steps).cost]
      exact .inr rfl
    · rw [Function.update_of_ne hve]
      exact (l.waiting v hv).imp_left fun hqueued =>
        Search.queued_pop h hqueued (fun heq => absurd heq.symm hve) steps

/-- After that its edges can be followed. What comes out lies on one side of each node; nothing on that
side comes before the node did, so nothing at all does, and the other side may be opened. -/
theorem posting (l : Ledger g q s paid) (hq : q.Sound g) (r : Search g q s) (hs : q.Strict)
    (h : s.queue.pop? = some (entry, queue)) (hlt : ¬ s.bestOf entry.node < entry.cost)
    (hne : entry.node ≠ q.target) (steps : Nat) :
    Posting g q { s with queue, steps } (Function.update paid entry.node (some entry.cost)) entry.node
      (g.out entry.node) := by
  have hcost : s.bestOf entry.node = entry.cost := (r.expanding h hlt steps).cost
  have hscore := Search.score_eq hs.source (r.reached.popped h)
  have hmem : ∀ y ∈ queue.entries, y ∈ s.queue.entries := fun y hy =>
    (Frontier.mem_pop? h).2 (.inr hy)
  have hentry : entry ∈ s.queue.entries := (Frontier.mem_pop? h).2 (.inl rfl)
  have hall {score : α} (hnot : entry.NotBelow score) : ∀ y ∈ queue.entries, y.NotBelow score :=
    fun y hy => (r.reached.notBelow_of_pop h (hmem y hy)).trans hnot
  refine ⟨l.pay r h hlt hne steps, ?_, ?_, ?_, ?_⟩
  · rw [Function.update_self]
    exact congrArg some hcost.symm
  · intro v w hp
    obtain ⟨c, hc, e, he, hew, hbest⟩ := l.link v w hp
    by_cases hv : v = entry.node
    · subst hv
      obtain ⟨hsum, -, hle⟩ := l.above _ c hc
      have hle := (r.reached.isSum _).add_le_add hsum (hq.weighted _ e he) hle
      rw [hcost, ← hbest] at hle
      exact ⟨_, Function.update_self .., e, he, hew, .inr ⟨rfl, he, hle⟩⟩
    · refine ⟨c, ?_, e, he, hew, .inl hbest⟩
      rwa [Function.update_of_ne hv]
  · intro v c hc hway
    by_cases hv : v = entry.node
    · subst hv
      rw [Function.update_self, Option.some.injEq] at hc
      subst hc
      refine ⟨hcost, fun y hy _ => ?_⟩
      rw [← hscore]
      exact r.reached.notBelow_of_pop h (hmem y hy)
    · rw [Function.update_of_ne hv] at hc
      have hthrough : s.Through v entry.node := by
        rcases Relation.reflTransGen_iff_eq_or_transGen.1 hway with heq | hthrough
        · exact absurd heq.symm hv
        · exact hthrough
      rcases l.sides v c hc with hnone | ⟨hbest, hnone⟩
      · have hnot := hnone entry hentry hthrough
        exact ⟨l.settled r.reached hs h hc hnot, fun y hy _ => hall hnot y hy⟩
      · exact ⟨hbest, fun y hy => hnone y (hmem y hy)⟩
  · intro v c hc haside
    have hv : v ≠ entry.node := by
      rintro rfl
      exact haside .refl
    rw [Function.update_of_ne hv] at hc
    rcases l.sides v c hc with hnone | ⟨-, hnone⟩
    · exact fun y hy => hnone y (hmem y hy)
    · have hnot := hnone entry hentry fun hthrough => haside hthrough.to_reflTransGen
      exact fun y hy _ => hall hnot y hy

/-- At first nothing is paid. -/
theorem start (hq : q.Sound g) : Ledger g q (State.start g q) fun _ => none where
  target := rfl
  above v c hc := by cases hc
  waiting v hv := .inl (Search.queued_start hq hv)
  link v w hp := by
    rw [State.prevOf_start] at hp
    cases hp
  sides v c hc := by cases hc

end Ledger

/-- The search goes on, and some ledger accounts for it. -/
def Accounted (g : Network α π) (q : Query α) (s : State α) : Prop :=
  Search g q s ∧ ∃ paid, Ledger g q s paid

theorem accounted_upheld (hq : q.Sound g) (hs : q.Strict) : Search.Upheld g q (Accounted g q) where
  search r := r.1
  drop r h hlt := by
    obtain ⟨paid, l⟩ := r.2
    exact ⟨r.1.drop h hlt, paid, l.drop h hlt⟩
  expand r h hlt hne steps := by
    obtain ⟨paid, l⟩ := r.2
    have hexpanding := r.1.expanding h hlt steps
    have hposting := l.posting hq r.1 hs h hlt hne steps
    exact ⟨(hexpanding.search hq hne).1, _,
      (hposting.foldl hq _ (fun _ he => he) hexpanding).ledger⟩

/-! ## The target -/

/-- The entry of the target that comes out first stands for what is kept for it. -/
theorem Ledger.cost_eq (l : Ledger g q s paid) (r : Search g q s) (hs : q.Strict)
    (h : s.queue.pop? = some (entry, queue)) (ht : entry.node = q.target) :
    s.bestOf q.target = entry.cost := by
  have hwait := r.reached.popped h
  have hle : s.bestOf q.target ≤ entry.cost := ht ▸ hwait.above
  by_contra hne
  have hlt : s.bestOf q.target < entry.cost := lt_of_le_of_ne hle hne
  rcases l.waiting q.target (lt_trans hlt hwait.finite) with ⟨y, hy, hyt, hcost⟩ | hpaid
  · apply r.reached.notBelow_of_pop h hy
    rw [Search.score_eq hs.source (r.reached.waiting y hy), Search.score_eq hs.source hwait, hcost, hyt,
      ht]
    exact hs.lt q.target _ _ hlt hwait.finite
  · rw [l.target] at hpaid
    cases hpaid

/-- What is kept for the last node of a trail is what its edges cost, if no node on it was reached more
cheaply since it was expanded. -/
theorem Ledger.exists_walk (l : Ledger g q s paid) (r : Reached g q s) {vs : List NodeId}
    (h : s.Trail q.source w vs)
    (hsettled : ∀ v c, s.Through v w → paid v = some c → s.bestOf v = c) :
    ∃ es, g.Walk q.source es w ∧ visited q.source es = vs ∧ total q.objective es = s.bestOf w := by
  induction h with
  | root _ => exact ⟨[], .nil, rfl, r.source.symm⟩
  | @step v w vs hp _ ih =>
    obtain ⟨es, hes, rfl, htotal⟩ := ih fun x c hx hc => hsettled x c (.tail hx hp) hc
    obtain ⟨c, hc, e, he, rfl, hbest⟩ := l.link v w hp
    refine ⟨es ++ [e], hes.snoc he, visited_snoc es e, ?_⟩
    rw [total, costFrom_snoc, hbest, ← hsettled v c (.single hp) hc]
    exact congrArg (· + e.cost q.objective) htotal

/-- So the path that is read off at the target costs what is answered. -/
theorem Ledger.exists_path (l : Ledger g q s paid) (r : Search g q s) (hq : q.Sound g) (hs : q.Strict)
    (h : s.queue.pop? = some (entry, queue)) (ht : entry.node = q.target) :
    ∃ es, g.Walk q.source es q.target ∧ s.pathTo q.target = visited q.source es ∧
      (visited q.source es).Nodup ∧ entry.cost = total q.objective es := by
  have hentry : entry ∈ s.queue.entries := (Frontier.mem_pop? h).2 (.inl rfl)
  have hcost := l.cost_eq r hs h ht
  have hfin : s.bestOf q.target < Cost.infinite := hcost ▸ (r.reached.popped h).finite
  have hsettled : ∀ v c, s.Through v q.target → paid v = some c → s.bestOf v = c := by
    intro v c hthrough hc
    rcases l.sides v c hc with hnone | ⟨hbest, -⟩
    · exact l.settled r.reached hs h hc (hnone entry hentry (ht ▸ hthrough))
    · exact hbest
  obtain ⟨vs, hvs⟩ := r.reached.trail q.target hfin
  obtain ⟨es, hes, rfl, htotal⟩ := l.exists_walk r.reached hvs hsettled
  exact ⟨es, hes, r.reached.pathTo_eq hq hvs, hvs.nodup, (htotal.trans hcost).symm⟩

end Ledger
end RoadRouting.Network
