import Mathlib.Data.Finset.Card
import RoadRouting.Proofs.Network.Chart

/-!
# What a network counts

The nodes of a network are as many as the identifiers it knows, and its edges as many as the pairs of
identifiers it links (`Grown.counted`). So networks that know and link the same have equal counts.
-/

namespace RoadRouting.Network
set_option autoImplicit false

variable {α π : Type}

variable {g g' : Network α π}

theorem isSome_linkOf {a b : Int64} : (g.linkOf a b).isSome ↔
    ∃ u v, g.lookup a = some u ∧ g.lookup b = some v ∧ (g.edge? u v).isSome := by
  unfold linkOf
  cases g.lookup a with
  | none => simp
  | some u =>
    cases g.lookup b with
    | none => simp
    | some v => simp

variable [Quantity α]

theorem edgeCount_withRoad {u : NodeId} {e : Edge α} : (g.withRoad u e).edgeCount =
    if (g.edge? u e.target).isNone then g.edgeCount + 1 else g.edgeCount := by
  have hsame : (g.noteSpeed e.length e.travel).edge? u e.target = g.edge? u e.target := by
    simp only [edge?, out, node?, nodes_noteSpeed]
  have hcount : (g.noteSpeed e.length e.travel).edgeCount = g.edgeCount := by
    unfold noteSpeed
    simp only
    split_ifs <;> rfl
  unfold withRoad link
  simp only [hsame]
  split
  · simp only [hcount]
  · exact hcount

/-- The identifiers that are known and the pairs that are linked are as many as the network counts. -/
structure Counted (g : Network α π) : Prop where
  nodes : ∃ s : Finset Int64, s.card = g.nodeCount ∧ ∀ id, id ∈ s ↔ (g.lookup id).isSome
  edges : ∃ s : Finset (Int64 × Int64),
    s.card = g.edgeCount ∧ ∀ q, q ∈ s ↔ (g.linkOf q.1 q.2).isSome

/-- A road between nodes with identifiers links these, besides what was linked. -/
theorem WellFormed.isSome_linkOf_withRoad (hg : g.WellFormed) {u : NodeId} {e : Edge α} {a b : Int64}
    (ha : g.lookup a = some u) (hb : g.lookup b = some e.target) (q : Int64 × Int64) :
    ((g.withRoad u e).linkOf q.1 q.2).isSome ↔ q = (a, b) ∨ (g.linkOf q.1 q.2).isSome := by
  have hq := congrFun (congrArg Chart.link (hg.chart_withRoad ha hb e.length e.travel e.className)) q
  simp only [chart, Function.update_apply] at hq
  rw [hq]
  split
  · rename_i h
    simp [h]
  · rename_i h
    simp [h]

theorem Counted.update (hg : g.WellFormed) (h : g.Counted) (hu : Update g g') : g'.Counted := by
  obtain ⟨⟨nodes, hnodes, hknown⟩, ⟨edges, hedges, hlinked⟩⟩ := h
  cases hu with
  | node id p hid _ =>
    refine ⟨⟨insert id nodes, ?_, ?_⟩, edges, hedges, ?_⟩
    · rw [Finset.card_insert_of_notMem (by simp [hknown, hid]), hnodes, nodeCount_withNode]
    · intro i
      rw [Finset.mem_insert, hknown, lookup_withNode]
      by_cases hi : id = i
      · simp [hi]
      · simp [hi, Ne.symm hi]
    · intro q
      rw [hlinked, hg.linkOf_withNode hid]
  | position v p =>
    refine ⟨⟨nodes, by rw [hnodes, nodeCount_moved], hknown⟩, edges, hedges, fun q => ?_⟩
    simp only [hlinked, isSome_linkOf, lookup_moved, edge?_moved]
  | name n _ _ =>
    exact ⟨⟨nodes, hnodes, hknown⟩, edges, hedges, fun q => by
      simp only [hlinked, isSome_linkOf, lookup_withClass]
      rfl⟩
  | road u e hu he =>
    obtain ⟨a, ha⟩ := hg.exists_lookup hu
    obtain ⟨b, hb⟩ := hg.exists_lookup he
    have hab : (a, b) ∈ edges ↔ (g.edge? u e.target).isSome := by
      rw [hlinked, linkOf_eq ha hb, Option.isSome_map]
    refine ⟨⟨nodes, by rw [hnodes, nodeCount_withRoad], ?_⟩, insert (a, b) edges, ?_, ?_⟩
    · intro id
      rw [hknown, lookup_withRoad]
    · rw [edgeCount_withRoad]
      -- The pair is new exactly when the edge replaces none.
      cases hnew : g.edge? u e.target with
      | none =>
        rw [Finset.card_insert_of_notMem (by simp [hab, hnew]), hedges]
        rfl
      | some f =>
        rw [Finset.insert_eq_of_mem (by simp [hab, hnew]), hedges]
        rfl
    · intro q
      rw [Finset.mem_insert, hlinked, hg.isSome_linkOf_withRoad ha hb]

theorem Grown.counted (h : g.Grown) : g.Counted := by
  have hempty : (Network.empty : Network α π).Counted := by
    refine ⟨⟨∅, rfl, ?_⟩, ⟨∅, rfl, ?_⟩⟩
    · intro id
      simp [lookup, Network.empty]
    · intro q
      simp [linkOf, lookup, Network.empty]
  have hboth : g.WellFormed ∧ g.Counted :=
    h.induct (P := fun g => g.WellFormed ∧ g.Counted) ⟨.empty, hempty⟩
      fun _ _ hu hp => ⟨hp.1.update hu, hp.2.update hp.1 hu⟩
  exact hboth.2

/-- Networks that know the same identifiers have as many nodes. -/
theorem Grown.nodeCount_eq (h : g.Grown) (h' : g'.Grown)
    (hknown : ∀ id, (g.lookup id).isSome ↔ (g'.lookup id).isSome) : g.nodeCount = g'.nodeCount := by
  obtain ⟨s, hs, hmem⟩ := h.counted.nodes
  obtain ⟨s', hs', hmem'⟩ := h'.counted.nodes
  have hsame : s = s' := Finset.ext fun id => by rw [hmem, hmem', hknown]
  rw [← hs, ← hs', hsame]

/-- Networks that link the same identifiers have as many edges. -/
theorem Grown.edgeCount_eq (h : g.Grown) (h' : g'.Grown)
    (hlinked : ∀ a b, (g.linkOf a b).isSome ↔ (g'.linkOf a b).isSome) : g.edgeCount = g'.edgeCount := by
  obtain ⟨s, hs, hmem⟩ := h.counted.edges
  obtain ⟨s', hs', hmem'⟩ := h'.counted.edges
  have hsame : s = s' := Finset.ext fun q => by rw [hmem, hmem', hlinked]
  rw [← hs, ← hs', hsame]

end RoadRouting.Network
