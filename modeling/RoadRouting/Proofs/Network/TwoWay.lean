import RoadRouting.Proofs.Network.Chart
import RoadRouting.Proofs.Network.Exact
import RoadRouting.Proofs.Network.ShortestPath

/-!
# Networks that lead back

In a network that leads back (`TwoWay`) each edge has one against it that is like it. So a walk can be
taken back: the way back has the costs of the way there, in the opposite order, and where costs add up to
the same in any order (`OrderFreeCost`) the searches there and back find paths of the same cost
(`TwoWay.plain_agree`). Rounded costs do not; but a network can be read in exact numbers (`valued`).
-/

namespace RoadRouting.Network
set_option autoImplicit false
open scoped ENNReal
open Cost (IsWeight IsSum)

variable {α β π : Type}

/-- Each edge has one against it, of the same length, time and class. -/
def TwoWay (g : Network α π) : Prop :=
  ∀ u v e, g.edge? u v = some e → g.edge? v u = some { e with target := u }

/-- Costs that add up to the same in any order. -/
class OrderFreeCost (α : Type) [Cost α] : Prop extends LawfulCost α where
  add_right_comm (a b c : α) : a + b + c = a + c + b

instance : OrderFreeCost ℝ≥0∞ where
  add_right_comm := add_right_comm

instance : OrderFreeCost EReal where
  add_right_comm := add_right_comm

/-! ## Links -/

theorem Classified.className_inj {g : Network α π} (h : g.Classified) {c d : ClassId}
    (hc : c.index < g.classes.size) (hd : d.index < g.classes.size)
    (hname : g.className c = g.className d) : c = d := by
  have hnumber {c : ClassId} (hc : c.index < g.classes.size) :
      g.classNumbers[g.className c]? = some c := by
    rw [h.number_iff, className, Array.getD_eq_getD_getElem?, Array.getElem?_eq_getElem hc,
      Option.getD_some]
  have heq := hnumber hc
  rw [hname, hnumber hd] at heq
  exact (Option.some.inj heq).symm

/-- A network leads back if the links between identifiers do. -/
theorem Grown.twoWay [Quantity α] {g : Network α π} (hg : g.Grown)
    (h : ∀ a b, g.linkOf a b = g.linkOf b a) : g.TwoWay := by
  intro u v e he
  obtain ⟨hout, rfl⟩ := mem_of_edge? he
  have hwell := hg.wellFormed
  obtain ⟨a, ha⟩ := hwell.exists_lookup (index_lt_of_mem_out hout)
  obtain ⟨b, hb⟩ := hwell.exists_lookup (hwell.targets u e hout)
  have hlink := h a b
  rw [linkOf_eq ha hb, linkOf_eq hb ha, he, Option.map_some, eq_comm, Option.map_eq_some_iff] at hlink
  obtain ⟨f, hf, hsame⟩ := hlink
  obtain ⟨hback, htarget⟩ := mem_of_edge? hf
  obtain ⟨hlength, htravel, hname⟩ := Link.mk.inj hsame
  have hclass : f.className = e.className :=
    hg.classified.className_inj (hg.classified.inRange _ f hback) (hg.classified.inRange u e hout) hname
  rw [hf]
  obtain ⟨target, length, travel, className⟩ := f
  simp only at hlength htravel hclass htarget
  rw [hlength, htravel, hclass, htarget]

/-! ## The way back -/

section Back
variable {g : Network α π} {u v : NodeId} {es : List (Edge α)}

theorem Walk.cons {e : Edge α} (he : e ∈ g.out u) (h : g.Walk e.target es v) :
    g.Walk u (e :: es) v := by
  induction h with
  | nil => exact .single he
  | snoc _ hf ih => exact ih.snoc hf

/-- A walk can be taken back, at the same costs in the opposite order. -/
theorem TwoWay.exists_back [Cost α] (ht : g.TwoWay) (hg : g.WellFormed) (h : g.Walk u es v)
    (o : Objective) :
    ∃ back, g.Walk v back u ∧ back.map (·.cost o) = (es.map (·.cost o)).reverse := by
  induction h with
  | nil => exact ⟨[], .nil, rfl⟩
  | @snoc es w e _ he ih =>
    obtain ⟨back, hback, hcosts⟩ := ih
    have hagainst : { e with target := w } ∈ g.out e.target :=
      (mem_of_edge? (ht w e.target e (hg.edge?_eq he))).1
    have hcost : ({ e with target := w } : Edge α).cost o = e.cost o := by
      cases o <;> rfl
    refine ⟨{ e with target := w } :: back, .cons hagainst hback, ?_⟩
    rw [List.map_cons, hcost, hcosts, List.map_append, List.reverse_append]
    rfl

theorem total_eq_of_perm [Cost α] [OrderFreeCost α] {o : Objective} {es' : List (Edge α)}
    (h : (es.map (·.cost o)).Perm (es'.map (·.cost o))) : total o es = total o es' := by
  have hfold (es : List (Edge α)) : total o es = (es.map (·.cost o)).foldl (· + ·) 0 :=
    List.foldl_map.symm
  rw [hfold, hfold]
  exact h.foldl_eq' (fun x _ y _ z => OrderFreeCost.add_right_comm z x y) 0

theorem TwoWay.exists_walk_back [Cost α] [OrderFreeCost α] (ht : g.TwoWay) (hg : g.WellFormed)
    (h : g.Walk u es v) (o : Objective) : ∃ back, g.Walk v back u ∧ total o back = total o es := by
  obtain ⟨back, hback, hcosts⟩ := ht.exists_back hg h o
  exact ⟨back, hback, total_eq_of_perm (hcosts ▸ List.reverse_perm _)⟩

/-- The searches there and back find paths of the same cost, or none. -/
theorem TwoWay.plain_agree [Quantity α] [OrderFreeCost α] {o : Objective} (ht : g.TwoWay)
    (hg : g.WellFormed) (hw : g.Weighted o) (hu : u.index < g.nodeCount) (hv : v.index < g.nodeCount) :
    (∃ f f', g.plain u v o none = .ok f ∧ g.plain v u o none = .ok f' ∧ f.cost = f'.cost) ∨
      (g.plain u v o none = .error .noPath ∧ g.plain v u o none = .error .noPath) :=
  Answers.agree hw (fun _ hes => ht.exists_walk_back hg hes o)
    (fun _ hes => ht.exists_walk_back hg hes o)
    (plain_answers hg hw hu hv) (plain_answers hg hw hv hu)

end Back

/-! ## Costs read otherwise -/

/-- An edge with its length and its time read otherwise. -/
def Edge.valued (value : α → β) (e : Edge α) : Edge β :=
  ⟨e.target, value e.length, value e.travel, e.className⟩

/-- A network with its lengths and times read otherwise. -/
def valued (value : α → β) (g : Network α π) : Network β π where
  nodes := g.nodes.map fun n => ⟨n.id, n.position, n.out.map (.valued value)⟩
  numbers := g.numbers
  classes := g.classes
  classNumbers := g.classNumbers
  edgeCount := g.edgeCount
  fastest := value g.fastest

section Valued
variable {g : Network α π} {value : α → β} {u v : NodeId}

@[simp] theorem Edge.cost_valued (e : Edge α) (o : Objective) :
    (e.valued value).cost o = value (e.cost o) := by
  cases o <;> rfl

@[simp] theorem nodeCount_valued : (g.valued value).nodeCount = g.nodeCount := Array.size_map ..

@[simp] theorem lookup_valued (id : Int64) : (g.valued value).lookup id = g.lookup id := rfl

theorem node?_valued : (g.valued value).node? v =
    (g.node? v).map fun n => ⟨n.id, n.position, n.out.map (.valued value)⟩ := Array.getElem?_map ..

@[simp] theorem id?_valued : (g.valued value).id? v = g.id? v := by
  rw [id?, node?_valued, Option.map_map]
  rfl

theorem out_valued : (g.valued value).out v = (g.out v).map (.valued value) := by
  unfold out
  rw [node?_valued]
  cases g.node? v <;> rfl

theorem edge?_valued : (g.valued value).edge? u v = (g.edge? u v).map (.valued value) := by
  rw [edge?, out_valued, List.find?_map]
  rfl

theorem WellFormed.valued (hg : g.WellFormed) (value : α → β) : (g.valued value).WellFormed where
  lookup_iff id v := by
    rw [lookup_valued, id?_valued]
    exact hg.lookup_iff id v
  targets v e he := by
    rw [out_valued] at he
    obtain ⟨f, hf, rfl⟩ := List.mem_map.1 he
    rw [nodeCount_valued]
    exact hg.targets v f hf
  distinct v := by
    rw [out_valued, List.map_map]
    exact hg.distinct v

theorem TwoWay.valued (ht : g.TwoWay) (value : α → β) : (g.valued value).TwoWay := by
  intro u v e he
  rw [edge?_valued] at he ⊢
  obtain ⟨f, hf, rfl⟩ := Option.map_eq_some_iff.1 he
  rw [ht u v f hf]
  rfl

theorem weighted_valued [Cost β] {o : Objective}
    (h : ∀ v, ∀ e ∈ g.out v, IsWeight (value (e.cost o))) :
    (g.valued value).Weighted o := by
  intro v e he
  rw [out_valued] at he
  obtain ⟨f, hf, rfl⟩ := List.mem_map.1 he
  rw [Edge.cost_valued]
  exact h v f hf

end Valued
end RoadRouting.Network
