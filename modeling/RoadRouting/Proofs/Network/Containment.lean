import RoadRouting.Proofs.Network.Chart

/-!
# Networks within networks

A network lies within another one when all that it says of positions and links is said there as well
(`Within`), whatever numbers its nodes have. A walk in the smaller one then has a counterpart in the
larger one that leads between the same identifiers and costs the same (`Within.walk`).
-/

namespace RoadRouting.Network
set_option autoImplicit false
open Cost (IsWeight)

variable {α π : Type} {g g' : Network α π}

/-- What a link costs under an objective. -/
def Link.cost (l : Link α) : Objective → α
  | .time => l.travel
  | .distance => l.length

/-- All positions and links of a network are those of another one. -/
structure Within (g g' : Network α π) : Prop where
  position : ∀ id p, g.positionOf id = some p → g'.positionOf id = some p
  link : ∀ a b l, g.linkOf a b = some l → g'.linkOf a b = some l

namespace WellFormed

/-- An edge is the link from the identifier of its one end to that of the other. -/
theorem exists_link (hg : g.WellFormed) {v : NodeId} {e : Edge α} (he : e ∈ g.out v) {a : Int64}
    (ha : g.lookup a = some v) : ∃ b l, g.lookup b = some e.target ∧ g.linkOf a b = some l ∧
      ∀ o, l.cost o = e.cost o := by
  obtain ⟨b, hb⟩ := hg.exists_lookup (hg.targets v e he)
  refine ⟨b, ⟨e.length, e.travel, g.className e.className⟩, hb, ?_, ?_⟩
  · rw [linkOf_eq ha hb, hg.edge?_eq he]
    rfl
  · intro o
    cases o <;> rfl

/-- What all links cost all edges cost. -/
theorem weighted [Cost α] (hg : g.WellFormed) {o : Objective}
    (h : ∀ a b l, g.linkOf a b = some l → IsWeight (l.cost o)) : g.Weighted o := by
  intro v e he
  obtain ⟨a, ha⟩ := hg.exists_lookup (index_lt_of_mem_out he)
  obtain ⟨b, l, -, hl, hcost⟩ := hg.exists_link he ha
  rw [← hcost]
  exact h a b l hl

end WellFormed

/-- A walk has a counterpart that costs the same. -/
theorem Within.walk [Cost α] (h : Within g g') (hg : g.WellFormed) {u v u' : NodeId}
    {es : List (Edge α)} {a : Int64} (hes : g.Walk u es v) (ha : g.lookup a = some u)
    (ha' : g'.lookup a = some u') : ∃ b v' es', g.lookup b = some v ∧ g'.lookup b = some v' ∧
      g'.Walk u' es' v' ∧ ∀ o, total o es' = total o es := by
  induction hes with
  | nil => exact ⟨a, u', [], ha, ha', .nil, fun _ => rfl⟩
  | @snoc es x e _ he ih =>
    obtain ⟨b, x', es', hb, hb', hes', htotal⟩ := ih
    obtain ⟨c, l, hc, hl, hcost⟩ := hg.exists_link he hb
    obtain ⟨y, e', hy, he', hc', hlength, htravel⟩ := exists_edge_of_linkOf (h.link b c l hl)
    obtain rfl : x' = y := Option.some.inj (hb'.symm.trans hy)
    have hsame : ∀ o, e'.cost o = l.cost o := by
      intro o
      cases o
      · exact htravel
      · exact hlength
    refine ⟨c, e'.target, es' ++ [e'], hc, hc', hes'.snoc he', ?_⟩
    intro o
    calc total o (es' ++ [e'])
        = total o es' + e'.cost o := costFrom_snoc es' e'
      _ = total o es + e.cost o := by rw [htotal, hsame, hcost]
      _ = total o (es ++ [e]) := (costFrom_snoc es e).symm

/-- A way between two identifiers has a counterpart that costs the same. -/
theorem Within.exists_walk [Cost α] (h : Within g g') (hg : g.WellFormed) {u v u' v' : NodeId}
    {es : List (Edge α)} {a b : Int64} (hes : g.Walk u es v) (ha : g.lookup a = some u)
    (hb : g.lookup b = some v) (ha' : g'.lookup a = some u') (hb' : g'.lookup b = some v') :
    ∃ es', g'.Walk u' es' v' ∧ ∀ o, total o es' = total o es := by
  obtain ⟨c, w, es', hc, hc', hes', htotal⟩ := h.walk hg hes ha ha'
  obtain rfl := hg.id_unique hb hc
  obtain rfl : v' = w := Option.some.inj (hb'.symm.trans hc')
  exact ⟨es', hes', htotal⟩

end RoadRouting.Network
