import RoadRouting.Proofs.Network.Exact
import RoadRouting.Proofs.Network.Ledger

/-!
# Searches whose estimates are too high

With exact costs a search finds a path exactly if there is one, and answers what the path costs, whatever
its estimates are (`search_decides`): they may exceed what remains, and fall by more than an edge costs.
The path need not be a shortest one then, but it is the one that was paid for. The guided search is such
a search wherever nodes are placed, also when an edge is shorter than the straight line.
-/

namespace RoadRouting.Network
set_option autoImplicit false

variable {α π : Type}

section Answers
variable [Cost α] {g : Network α π} {q : Query α}

/-- A path of edges from one node to another that visits no node twice, with what its edges add up to. -/
structure Costed (g : Network α π) (o : Objective) (u v : NodeId) (f : Found α) : Prop where
  head : f.path.head? = some u
  last : f.path.getLast? = some v
  nodup : f.path.Nodup
  linked : f.path.IsChain fun a b => (g.edge? a b).isSome
  walk : ∃ es, g.Walk u es v ∧ f.path = visited u es ∧ f.cost = total o es

/-- What a search has to answer that finds a path exactly if there is one. -/
def Decides (g : Network α π) (o : Objective) (u v : NodeId)
    (answer : Except SearchFault (Found α)) : Prop :=
  ((∃ es, g.Walk u es v) ∧ ∃ f, answer = .ok f ∧ Costed g o u v f) ∨
    (¬ ∃ es, g.Walk u es v) ∧ answer = .error .noPath

theorem Decides.exists_path {o : Objective} {u v : NodeId} {answer : Except SearchFault (Found α)}
    (h : Decides g o u v answer) (hwalk : ∃ es, g.Walk u es v) :
    ∃ f, answer = .ok f ∧ Costed g o u v f := by
  rcases h with ⟨-, hfound⟩ | ⟨hnone, -⟩
  · exact hfound
  · exact absurd hwalk hnone

variable [LawfulCost α]

theorem Query.Strict.answers (hs : q.Strict) (hq : q.Sound g) (ht : q.target.index < g.nodeCount)
    (hl : q.limit = none) :
    Answers g q.objective q.source q.target (Costed g q.objective q.source q.target) (g.search q) := by
  refine hq.answers ht hl (accounted_upheld hq hs) ⟨Search.start hq, _, Ledger.start hq⟩ ?_ ?_
  · rintro s entry queue ⟨r, paid, l⟩ h ht
    obtain ⟨es, hes, hpath, hnodup, hcost⟩ := l.exists_path r hq hs h ht
    rw [hpath, hcost]
    exact ⟨rfl, hes.getLast?_visited, hnodup, hes.isChain hq.wellFormed, es, hes, rfl, rfl⟩
  · intro hst
    have hnil : g.Walk q.source [] q.target := hst ▸ .nil
    exact ⟨rfl, hnil.getLast?_visited, List.nodup_singleton _, hnil.isChain hq.wellFormed, [], hnil,
      rfl, rfl⟩

end Answers

/-! ## Exact costs -/

theorem Query.Strict.decides [Cost α] [ExactCost α] {g : Network α π} {q : Query α} (hs : q.Strict)
    (hq : q.Sound g) (hfin : ∀ x, ∀ e ∈ g.out x, e.cost q.objective < Cost.infinite)
    (ht : q.target.index < g.nodeCount) (hl : q.limit = none) :
    Decides g q.objective q.source q.target (g.search q) := by
  have h := hs.answers hq ht hl
  cases hr : g.search q with
  | ok f =>
    rw [hr] at h
    obtain ⟨es, hes, -⟩ := h.walk
    exact .inl ⟨⟨es, hes⟩, f, rfl, h⟩
  | error fault =>
    rw [hr] at h
    obtain ⟨rfl, hnone⟩ := h
    exact .inr ⟨fun ⟨es, hes⟩ => hnone es hes (hes.total_lt_infinite hq.weighted hfin), rfl⟩

/-! ## Estimates of any kind -/

section Real
variable {g : Network EReal π} {o : Objective} {u v : NodeId}

/-- Real estimates keep finite costs apart. -/
theorem strict_of_real {q : Query EReal} (hreal : ∀ x, ∃ r : ℝ, q.estimate x = r) : q.Strict where
  source := zero_add _
  lt x a b hab _ := by
    obtain ⟨r, hr⟩ := hreal x
    rw [hr]
    exact compare_lt_iff_lt.2 (EReal.add_lt_add_right_coe hab r)

theorem div_real (c : ℝ) (x : EReal) : ∃ r : ℝ, (c : EReal) / x = r := by
  induction x with
  | bot => exact ⟨0, by simp⟩
  | top => exact ⟨0, by simp⟩
  | coe x => exact ⟨c / x, (EReal.coe_div c x).symm⟩

/-- The estimates of the guided search are real if the distances are: a quotient by nothing or by
infinity counts as nothing. -/
theorem remaining_real (distance : π → π → ℝ) (topSpeed : EReal) (p : π) (x : NodeId) : ∃ r : ℝ,
    g.remaining (fun a b => (distance a b : EReal)) p x * g.costPerMetre o topSpeed = r := by
  have hmetres : ∃ d : ℝ, g.remaining (fun a b => (distance a b : EReal)) p x = d := by
    unfold remaining
    split
    · exact ⟨_, rfl⟩
    · exact ⟨0, rfl⟩
  have hpace : ∃ c : ℝ, g.costPerMetre o topSpeed = c := by
    cases o with
    | time => exact div_real 3.6 _
    | distance => exact ⟨1, rfl⟩
  obtain ⟨d, hd⟩ := hmetres
  obtain ⟨c, hc⟩ := hpace
  exact ⟨d * c, by rw [hd, hc, EReal.coe_mul]⟩

/-- Whatever the estimates are, and wherever nodes are placed, the path and the cost that a search
answers belong together. -/
theorem search_decides (hg : g.Grown) (hw : ∀ x, ∀ e ∈ g.out x, 0 ≤ e.cost o ∧ e.cost o < ⊤)
    (hu : u.index < g.nodeCount) (hv : v.index < g.nodeCount) :
    (∀ estimate : NodeId → ℝ,
      Decides g o u v (g.search ⟨u, v, o, fun x => (estimate x : EReal), none⟩)) ∧
    ∀ (distance : π → π → ℝ) (topSpeed : EReal),
      Decides g o u v (g.guided (fun a b => (distance a b : EReal)) topSpeed u v o none) := by
  have hweighted : g.Weighted o := fun x e he => Exact.isWeight_of_nonneg (hw x e he).1
  have hdecides (estimate : NodeId → EReal) (hreal : ∀ x, ∃ r : ℝ, estimate x = r) :
      Decides g o u v (g.search ⟨u, v, o, estimate, none⟩) := by
    have hs : (⟨u, v, o, estimate, none⟩ : Query EReal).Strict := strict_of_real hreal
    exact hs.decides ⟨hg.wellFormed, hweighted, hu⟩ (fun x e he => (hw x e he).2) hv rfl
  constructor
  · exact fun estimate => hdecides _ fun x => ⟨estimate x, rfl⟩
  · intro distance topSpeed
    unfold guided
    cases g.position? v with
    | none => exact hdecides _ fun _ => ⟨0, rfl⟩
    | some p => exact hdecides _ fun x => remaining_real distance topSpeed p x

/-- The estimates may be far too high: here they have a road of three seconds lead from a node that is a
thousand away. -/
theorem search_decides_oneRoad :
    let g : Network EReal Nat := oneRoad 4 5 3
    (g.Grown ∧ 1 < g.nodeCount ∧ ∀ x, ∀ e ∈ g.out x, 0 ≤ e.cost .time ∧ e.cost .time < ⊤) ∧
      (∃ f, g.search ⟨⟨1⟩, ⟨0⟩, .time, fun x => ((1000 * x.index : ℝ) : EReal), none⟩ = .ok f ∧
        Costed g .time ⟨1⟩ ⟨0⟩ f) ∧
      ∃ f, g.guided (fun _ _ => ((1000 : ℝ) : EReal)) 50 ⟨1⟩ ⟨0⟩ .time none = .ok f ∧
        Costed g .time ⟨1⟩ ⟨0⟩ f := by
  intro g
  have hg : g.Grown := oneRoad_grown 4 5 3
  have hn : g.nodeCount = 2 := nodeCount_oneRoad 4 5 3
  have hthree : (3 : EReal) = ((3 : ℝ) : EReal) := rfl
  have hw : ∀ x, ∀ e ∈ g.out x, 0 ≤ e.cost .time ∧ e.cost .time < ⊤ := by
    intro x e he
    obtain ⟨-, rfl⟩ := mem_out_oneRoad 4 5 3 he
    constructor
    · show (0 : EReal) ≤ 3
      rw [hthree]
      exact_mod_cast (by norm_num : (0 : ℝ) ≤ 3)
    · show (3 : EReal) < ⊤
      rw [hthree]
      exact EReal.coe_lt_top 3
  have he : (⟨⟨0⟩, 5, 3, ⟨0⟩⟩ : Edge EReal) ∈ g.out ⟨1⟩ := by
    simp [g, out, node?, nodes_oneRoad]
  have hwalk : ∃ es, g.Walk ⟨1⟩ es ⟨0⟩ := ⟨_, .single he⟩
  obtain ⟨hsearch, hguided⟩ :=
    search_decides (u := ⟨1⟩) (v := ⟨0⟩) hg hw (by simp [hn]) (by simp [hn])
  refine ⟨⟨hg, by omega, hw⟩, ?_, ?_⟩
  · exact (hsearch fun x => 1000 * x.index).exists_path hwalk
  · exact (hguided (fun _ _ => 1000) 50).exists_path hwalk

end Real
end RoadRouting.Network
