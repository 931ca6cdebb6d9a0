import Mathlib.Algebra.Group.Nat.Defs
import Mathlib.Data.List.Chain
import Mathlib.Data.List.Induction
import Mathlib.Data.List.Perm.Subperm
import RoadRouting.Proofs.Network.Costs
import RoadRouting.Proofs.Network.Growth

/-!
# Walks

A walk is a list of edges, each of which leaves the node that the one before it leads to. Its cost is
summed from the first edge to the last, as a search does, so walks grow at their ends (`Walk.snoc`).
A walk that visits no node twice is shorter than the network has nodes (`Walk.length_lt`), and the
lists of so many edges are finitely many (`words`).
-/

namespace RoadRouting.Network
set_option autoImplicit false
open Cost (IsWeight IsSum)

variable {α π : Type}

/-- The edges lead from one node to another. -/
inductive Walk (g : Network α π) (u : NodeId) : List (Edge α) → NodeId → Prop
  | nil : Walk g u [] u
  | snoc {es : List (Edge α)} {v : NodeId} {e : Edge α} : Walk g u es v → e ∈ g.out v →
      Walk g u (es ++ [e]) e.target

/-- The costs of edges added to a cost, from the first edge to the last. -/
def costFrom [Cost α] (o : Objective) (c : α) (es : List (Edge α)) : α :=
  es.foldl (fun sum e => sum + e.cost o) c

/-- The cost of edges. -/
abbrev total [Cost α] (o : Objective) (es : List (Edge α)) : α := costFrom o 0 es

/-- The nodes that edges visit from a node on. -/
def visited (u : NodeId) (es : List (Edge α)) : List NodeId := u :: es.map (·.target)

/-- No edge has a negative cost, or one that is no number. -/
def Weighted [Cost α] (g : Network α π) (o : Objective) : Prop :=
  ∀ v, ∀ e ∈ g.out v, IsWeight (e.cost o)

/-- All edges, node by node. -/
def edges (g : Network α π) : List (Edge α) := g.nodes.toList.flatMap (·.out)

/-- The lists of at most `n` of the given items. -/
def words {β : Type} (items : List β) : Nat → List (List β)
  | 0 => [[]]
  | n + 1 => [] :: items.flatMap fun x => (words items n).map (x :: ·)

section Costs
variable [Cost α] {o : Objective} {c : α} {es : List (Edge α)}

theorem costFrom_append (p r : List (Edge α)) :
    costFrom o c (p ++ r) = costFrom o (costFrom o c p) r := List.foldl_append

@[simp] theorem costFrom_snoc (es : List (Edge α)) (e : Edge α) :
    costFrom o c (es ++ [e]) = costFrom o c es + e.cost o := by
  rw [costFrom_append]
  rfl

end Costs

section Visited
variable {u v : NodeId} {es : List (Edge α)}

@[simp] theorem visited_nil : visited u ([] : List (Edge α)) = [u] := rfl

theorem visited_snoc (es : List (Edge α)) (e : Edge α) :
    visited u (es ++ [e]) = visited u es ++ [e.target] := by
  simp [visited]

end Visited

theorem mem_words {β : Type} {items l : List β} {n : Nat} (hl : ∀ x ∈ l, x ∈ items)
    (hn : l.length ≤ n) : l ∈ words items n := by
  induction n generalizing l with
  | zero =>
    rw [List.length_eq_zero_iff.1 (Nat.le_zero.1 hn)]
    exact List.mem_singleton_self _
  | succ n ih =>
    cases l with
    | nil => exact List.mem_cons_self
    | cons x rest =>
      refine List.mem_cons_of_mem _ (List.mem_flatMap.2 ⟨x, hl x List.mem_cons_self, ?_⟩)
      have hrest : rest ∈ words items n :=
        ih (fun y hy => hl y (List.mem_cons_of_mem _ hy)) (Nat.le_of_succ_le_succ hn)
      exact List.mem_map_of_mem hrest

theorem length_words_le {β : Type} (items : List β) (n : Nat) :
    (words items n).length ≤ (items.length + 1) ^ n := by
  induction n with
  | zero => simp [words]
  | succ n ih =>
    have hsum : (words items (n + 1)).length = items.length * (words items n).length + 1 := by
      simp [words, List.length_flatMap]
    have hpos : 1 ≤ (items.length + 1) ^ n := Nat.one_le_pow _ _ (Nat.succ_pos _)
    calc (words items (n + 1)).length
        = items.length * (words items n).length + 1 := hsum
      _ ≤ items.length * (items.length + 1) ^ n + (items.length + 1) ^ n :=
          Nat.add_le_add (Nat.mul_le_mul_left _ ih) hpos
      _ = (items.length + 1) ^ (n + 1) := by rw [Nat.pow_succ, Nat.mul_succ, Nat.mul_comm]

section Edges
variable {g : Network α π} {u v : NodeId}

theorem mem_edges {e : Edge α} (h : e ∈ g.out v) : e ∈ g.edges := by
  rw [out] at h
  cases hn : g.node? v with
  | none => exact absurd h (by simp [hn])
  | some n =>
    obtain ⟨hlt, rfl⟩ := Array.getElem?_eq_some_iff.1 hn
    exact List.mem_flatMap.2 ⟨_, Array.mem_toList_iff.2 (Array.getElem_mem hlt), by simpa [hn] using h⟩

/-- An edge of a well-formed network is the one that is found between its ends. -/
theorem WellFormed.edge?_eq (hg : g.WellFormed) {e : Edge α} (he : e ∈ g.out v) :
    g.edge? v e.target = some e := by
  have hd := hg.distinct v
  unfold edge?
  generalize g.out v = es at he hd
  induction es with
  | nil => cases he
  | cons x rest ih =>
    rw [List.map_cons, List.nodup_cons] at hd
    rcases List.mem_cons.1 he with rfl | he
    · simp
    · have hx : x.target ≠ e.target := fun h => hd.1 (h ▸ List.mem_map_of_mem he)
      rw [List.find?_cons_of_neg (by simpa using hx)]
      exact ih he hd.2

end Edges

/-- Different nodes are no more than their numbers. -/
theorem length_le_of_nodup {vs : List NodeId} {n : Nat} (hn : vs.Nodup) (hlt : ∀ v ∈ vs, v.index < n) :
    vs.length ≤ n := by
  have hinj : (vs.map (·.index)).Nodup := hn.map fun x y hxy => NodeId.eq_iff.2 hxy
  have hsub : vs.map (·.index) ⊆ List.range n := by
    intro i hi
    obtain ⟨v, hv, rfl⟩ := List.mem_map.1 hi
    exact List.mem_range.2 (hlt v hv)
  have hlen := (List.subperm_of_subset hinj hsub).length_le
  rwa [List.length_map, List.length_range] at hlen

namespace Walk
variable {g : Network α π} {u v w : NodeId} {es p r : List (Edge α)}

theorem single {e : Edge α} (he : e ∈ g.out u) : Walk g u [e] e.target := .snoc .nil he

theorem of_snoc {e : Edge α} (h : Walk g u (es ++ [e]) v) :
    ∃ w, Walk g u es w ∧ e ∈ g.out w ∧ v = e.target := by
  generalize hl : es ++ [e] = l at h
  cases h with
  | nil => simp at hl
  | snoc hw he =>
    obtain ⟨rfl, hee⟩ := List.append_inj' hl rfl
    cases hee
    exact ⟨_, hw, he, rfl⟩

theorem split (h : Walk g u (p ++ r) v) : ∃ w, Walk g u p w ∧ Walk g w r v := by
  induction r using List.reverseRecOn generalizing v with
  | nil => exact ⟨v, by simpa using h, .nil⟩
  | append_singleton r e ih =>
    rw [← List.append_assoc] at h
    obtain ⟨w, hw, he, rfl⟩ := h.of_snoc
    obtain ⟨x, hp, hr⟩ := ih hw
    exact ⟨x, hp, hr.snoc he⟩

/-- Edges lead to one node only. -/
theorem unique (h : Walk g u es v) (h' : Walk g u es w) : v = w := by
  cases h with
  | nil =>
    generalize hl : ([] : List (Edge α)) = l at h'
    cases h' with
    | nil => rfl
    | snoc _ _ => simp at hl
  | snoc _ _ =>
    obtain ⟨x, -, -, rfl⟩ := h'.of_snoc
    rfl

theorem subset_edges (h : Walk g u es v) : ∀ e ∈ es, e ∈ g.edges := by
  induction h with
  | nil => simp
  | snoc _ he ih =>
    intro x hx
    rcases List.mem_append.1 hx with hx | hx
    · exact ih x hx
    · rw [List.mem_singleton.1 hx]
      exact mem_edges he

theorem getLast?_visited (h : Walk g u es v) : (visited u es).getLast? = some v := by
  cases h with
  | nil => rfl
  | snoc _ _ => rw [visited_snoc, List.getLast?_concat]

/-- Each node that a walk visits is where a part of it leads to. -/
theorem exists_prefix (h : Walk g u es v) {x : NodeId} (hx : x ∈ visited u es) :
    ∃ p, p <+: es ∧ Walk g u p x := by
  induction h with
  | nil =>
    rw [visited_nil, List.mem_singleton] at hx
    exact ⟨[], List.prefix_refl _, hx ▸ .nil⟩
  | @snoc es y e hw he ih =>
    rw [visited_snoc, List.mem_append, List.mem_singleton] at hx
    rcases hx with hx | rfl
    · obtain ⟨p, hp, hpw⟩ := ih hx
      exact ⟨p, hp.trans (List.prefix_append _ _), hpw⟩
    · exact ⟨es ++ [e], List.prefix_refl _, hw.snoc he⟩

theorem index_lt (hg : g.WellFormed) (hu : u.index < g.nodeCount) (h : Walk g u es v) :
    ∀ x ∈ visited u es, x.index < g.nodeCount := by
  induction h with
  | nil => simpa using hu
  | snoc _ he ih =>
    intro x hx
    rw [visited_snoc, List.mem_append, List.mem_singleton] at hx
    rcases hx with hx | rfl
    · exact ih x hx
    · exact hg.targets _ _ he

/-- A walk that visits no node twice is shorter than the network has nodes. -/
theorem length_lt (hg : g.WellFormed) (hu : u.index < g.nodeCount) (h : Walk g u es v)
    (hn : (visited u es).Nodup) : es.length < g.nodeCount := by
  have hlen := length_le_of_nodup hn (h.index_lt hg hu)
  rwa [visited, List.length_cons, List.length_map] at hlen

/-- So it is one of finitely many. -/
theorem mem_words (hg : g.WellFormed) (hu : u.index < g.nodeCount) (h : Walk g u es v)
    (hn : (visited u es).Nodup) : es ∈ words g.edges g.nodeCount :=
  Network.mem_words h.subset_edges (h.length_lt hg hu hn).le

/-- Successive nodes of a walk are joined by its edges. -/
theorem isChain (hg : g.WellFormed) (h : Walk g u es v) :
    List.IsChain (fun a b => (g.edge? a b).isSome) (visited u es) := by
  induction h with
  | nil => exact List.isChain_singleton _
  | snoc hw he ih =>
    rw [visited_snoc]
    refine List.isChain_append.2 ⟨ih, List.isChain_singleton _, ?_⟩
    intro a ha b hb
    rw [hw.getLast?_visited] at ha
    cases ha
    cases hb
    rw [hg.edge?_eq he]
    rfl

end Walk

section Sums
variable [Cost α] {g : Network α π} {o : Objective} {u v : NodeId} {es p : List (Edge α)} {c : α}

theorem Walk.isSum_from (hw : g.Weighted o) (h : Walk g u es v) (hc : IsSum c) :
    IsSum (costFrom o c es) := by
  induction h with
  | nil => exact hc
  | snoc _ he ih =>
    rw [costFrom_snoc]
    exact ih.add (hw _ _ he)

theorem Walk.isSum (hw : g.Weighted o) (h : Walk g u es v) : IsSum (total o es) :=
  h.isSum_from hw .zero

variable [LawfulCost α]
attribute [local instance] LawfulCost.order

theorem Cost.IsSum.zero_le {a : α} (ha : IsSum a) : 0 ≤ a := by
  induction ha with
  | zero => exact le_refl _
  | infinite => exact Cost.IsSum.zero.le_infinite
  | add ha hw ih => exact le_trans ih (ha.le_add hw)

theorem Walk.le_costFrom (hw : g.Weighted o) (h : Walk g u es v) (hc : IsSum c) :
    c ≤ costFrom o c es := by
  induction h with
  | nil => exact le_refl _
  | snoc h he ih =>
    rw [costFrom_snoc]
    exact le_trans ih ((h.isSum_from hw hc).le_add (hw _ _ he))

theorem Walk.costFrom_mono (hw : g.Weighted o) (h : Walk g u es v) {d : α} (hc : IsSum c)
    (hd : IsSum d) (hcd : c ≤ d) : costFrom o c es ≤ costFrom o d es := by
  induction h with
  | nil => exact hcd
  | snoc h he ih =>
    rw [costFrom_snoc, costFrom_snoc]
    exact (h.isSum_from hw hc).add_le_add (h.isSum_from hw hd) (hw _ _ he) ih

theorem Walk.total_prefix_le (hw : g.Weighted o) (h : Walk g u es v) (hp : p <+: es) :
    total o p ≤ total o es := by
  obtain ⟨r, rfl⟩ := hp
  obtain ⟨w, hpw, hrw⟩ := h.split
  rw [total, total, costFrom_append]
  exact hrw.le_costFrom hw (hpw.isSum hw)

end Sums

/-- When all edges have finite costs that add up exactly, so do all walks. -/
theorem Walk.total_lt_infinite [Cost α] [ExactCost α] {g : Network α π} {o : Objective}
    {u v : NodeId} {es : List (Edge α)} (hw : g.Weighted o)
    (hfin : ∀ v, ∀ e ∈ g.out v, e.cost o < Cost.infinite) (h : g.Walk u es v) :
    total o es < Cost.infinite := by
  induction h with
  | nil => exact LawfulCost.zero_lt_infinite
  | snoc h he ih =>
    rw [total, costFrom_snoc]
    exact ExactCost.add_lt_infinite (h.isSum hw) (hw _ _ he) ih (hfin _ _ he)

end RoadRouting.Network
