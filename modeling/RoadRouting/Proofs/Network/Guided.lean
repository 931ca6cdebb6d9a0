import RoadRouting.Proofs.Network.Exact
import RoadRouting.Proofs.Network.ShortestPath

/-!
# The guided search

The estimates of the guided search never exceed what remains when costs are exact and no edge is
shorter than the distance between its ends: a network has no edge that is faster than its fastest
speed (`Paced`), so no metre of a walk takes less time than the estimate has for it. A node that is
known without position is estimated at nothing, so estimates may fall by more than an edge costs; the
search expands a node again when it is reached more cheaply, and needs no more than that.
-/

namespace RoadRouting.Network
set_option autoImplicit false
open scoped ENNReal

variable {π : Type}

/-- Whatever the distances are, the guided search finds a path of finite cost if there is one. -/
theorem guided_leads {α : Type} [Quantity α] [LawfulCost α] {g : Network α π} {o : Objective}
    {u v : NodeId} (hg : g.WellFormed) (hw : g.Weighted o) (hu : u.index < g.nodeCount)
    (hv : v.index < g.nodeCount) (distance : π → π → α) (topSpeed : α) :
    Answers g o u v (Leads g o u v) (guided distance topSpeed g u v o none) := by
  unfold guided
  cases g.position? v with
  | none => exact Query.Sound.leads ⟨hg, hw, hu⟩ hv rfl
  | some p => exact Query.Sound.leads ⟨hg, hw, hu⟩ hv rfl

/-- No edge with a length is faster than the fastest speed. -/
def Paced (g : Network ℝ≥0∞ π) : Prop :=
  ∀ v, ∀ e ∈ g.out v, 0 < e.length → speedOf e.length e.travel ≤ g.fastest

section Fastest
variable {g : Network ℝ≥0∞ π}

theorem fastest_noteSpeed (length travel : ℝ≥0∞) : (g.noteSpeed length travel).fastest =
    if 0 < length then max g.fastest (speedOf length travel) else g.fastest := by
  unfold noteSpeed
  by_cases hl : 0 < length
  · simp only [if_pos hl]
    split
    · rename_i h
      exact (max_eq_right h.le).symm
    · rename_i h
      exact (max_eq_left (not_lt.1 h)).symm
  · simp only [if_neg hl]

theorem fastest_le_update {g' : Network ℝ≥0∞ π} (hu : Update g g') : g.fastest ≤ g'.fastest := by
  cases hu with
  | road u e _ _ =>
    rw [fastest_withRoad, fastest_noteSpeed]
    split
    · exact le_max_left _ _
    · exact le_refl _
  | node id p _ _ => exact le_refl _
  | position v p => exact le_refl _
  | name n _ _ => exact le_refl _

theorem Paced.update {g' : Network ℝ≥0∞ π} (h : g.Paced) (hu : Update g g') : g'.Paced := by
  intro v e he hpos
  rcases hu.mem_out he with hold | ⟨u, rfl⟩
  · exact (h v e hold hpos).trans (fastest_le_update hu)
  · rw [fastest_withRoad, fastest_noteSpeed, if_pos hpos]
    exact le_max_right _ _

theorem Grown.paced (hg : g.Grown) : g.Paced := by
  have hempty : (Network.empty : Network ℝ≥0∞ π).Paced := by
    intro v e he
    simp [out, node?, Network.empty] at he
  exact hg.induct hempty fun _ _ hu h => h.update hu

end Fastest

/-- A length at the least time for a metre takes no more than the time it does take. -/
theorem length_mul_le {length travel top : ℝ≥0∞} (htop : 0 < top)
    (h : 0 < length → speedOf length travel ≤ top) : length * (3.6 / top) ≤ travel := by
  rcases eq_or_ne top ⊤ with rfl | htop'
  · simp
  rcases eq_zero_or_pos length with rfl | hl
  · simp
  have hspeed := h hl
  unfold speedOf at hspeed
  split at hspeed
  · rename_i ht
    rcases eq_or_ne travel ⊤ with rfl | ht'
    · exact le_top
    have hmul : length * 3.6 ≤ travel * top := by
      calc length * 3.6 = travel * (length / travel * 3.6) := by
            rw [← mul_assoc, ENNReal.mul_div_cancel ht.ne' ht']
        _ ≤ travel * top := mul_le_mul_right hspeed travel
    calc length * (3.6 / top) = length * 3.6 / top := (mul_div_assoc _ _ _).symm
      _ ≤ travel := ENNReal.div_le_of_le_mul hmul
  · exact absurd (top_le_iff.1 hspeed) htop'

/-! ## Estimates -/

/-- Positions of all nodes that agree with the known ones, such that no edge is shorter than the
distance between its ends. -/
structure Embedding (g : Network ℝ≥0∞ π) (distance : π → π → ℝ≥0∞) (place : NodeId → π) : Prop where
  known : ∀ v p, g.position? v = some p → place v = p
  length : ∀ v, ∀ e ∈ g.out v, distance (place v) (place e.target) ≤ e.length

section Estimates
variable {g : Network ℝ≥0∞ π} {distance : π → π → ℝ≥0∞} {place : NodeId → π} {topSpeed : ℝ≥0∞}
  {o : Objective} {u v : NodeId} {es : List (Edge ℝ≥0∞)}

theorem length_mul_costPerMetre_le (hp : g.Paced) (htop : 0 < topSpeed) {e : Edge ℝ≥0∞}
    (he : e ∈ g.out v) : e.length * g.costPerMetre o topSpeed ≤ e.cost o := by
  cases o with
  | time =>
    have hspeed : 0 < e.length → speedOf e.length e.travel ≤ max topSpeed g.fastest :=
      fun hl => (hp v e he hl).trans (le_max_right _ _)
    exact length_mul_le (lt_max_of_lt_left htop) hspeed
  | distance => exact (mul_one e.length).le

/-- A walk costs no less than the estimate has for the straight distance. -/
theorem distance_mul_costPerMetre_le (hp : g.Paced) (htop : 0 < topSpeed)
    (hzero : ∀ p, distance p p = 0)
    (htriangle : ∀ p q r, distance p r ≤ distance p q + distance q r)
    (hpl : Embedding g distance place) (h : g.Walk u es v) :
    distance (place u) (place v) * g.costPerMetre o topSpeed ≤ total o es := by
  induction h with
  | nil => simp [hzero]
  | @snoc es v e h he ih =>
    calc distance (place u) (place e.target) * g.costPerMetre o topSpeed
        ≤ (distance (place u) (place v) + e.length) * g.costPerMetre o topSpeed :=
          mul_le_mul_left ((htriangle _ _ _).trans (add_le_add_right (hpl.length v e he) _)) _
      _ = distance (place u) (place v) * g.costPerMetre o topSpeed +
          e.length * g.costPerMetre o topSpeed := add_mul _ _ _
      _ ≤ total o es + e.cost o := add_le_add ih (length_mul_costPerMetre_le hp htop he)
      _ = total o (es ++ [e]) := (costFrom_snoc es e).symm

theorem costFrom_eq (c : ℝ≥0∞) (es : List (Edge ℝ≥0∞)) : costFrom o c es = c + total o es := by
  induction es using List.reverseRecOn with
  | nil => exact (add_zero c).symm
  | append_singleton es e ih =>
    rw [costFrom_snoc, total, costFrom_snoc, ih, add_assoc]

theorem remaining_mul_costPerMetre_le (hp : g.Paced) (htop : 0 < topSpeed)
    (hzero : ∀ p, distance p p = 0)
    (htriangle : ∀ p q r, distance p r ≤ distance p q + distance q r)
    (hpl : Embedding g distance place) {p : π} (hv : g.position? v = some p) (h : g.Walk u es v) :
    g.remaining distance p u * g.costPerMetre o topSpeed ≤ total o es := by
  unfold remaining
  cases hu : g.position? u with
  | none => simp
  | some r =>
    have hle := distance_mul_costPerMetre_le (o := o) hp htop hzero htriangle hpl h
    rwa [hpl.known u r hu, hpl.known v p hv] at hle

/-- The estimates of the guided search are admissible. -/
theorem admissible_remaining (hp : g.Paced) (htop : 0 < topSpeed) (hzero : ∀ p, distance p p = 0)
    (htriangle : ∀ p q r, distance p r ≤ distance p q + distance q r)
    (hpl : Embedding g distance place) {p : π} (hv : g.position? v = some p) (limit : Option Nat) :
    (⟨u, v, o, fun w => g.remaining distance p w * g.costPerMetre o topSpeed, limit⟩ :
      Query ℝ≥0∞).Admissible g where
  weight _ := Exact.isWeight _
  source := zero_add _
  below w es c h _ := by
    rw [costFrom_eq]
    have hle := remaining_mul_costPerMetre_le (o := o) hp htop hzero htriangle hpl hv h
    exact not_lt_of_ge (add_le_add_right hle c)

theorem guided_answers (hg : g.Grown) (htop : 0 < topSpeed) (hzero : ∀ p, distance p p = 0)
    (htriangle : ∀ p q r, distance p r ≤ distance p q + distance q r)
    (hpl : Embedding g distance place) (hu : u.index < g.nodeCount) (hv : v.index < g.nodeCount) :
    Answers g o u v (Shortest g o u v) (guided distance topSpeed g u v o none) := by
  have hw : g.Weighted o := fun _ _ _ => Exact.isWeight _
  unfold guided
  cases hp : g.position? v with
  | none => exact plain_answers hg.wellFormed hw hu hv
  | some p =>
    exact Query.Sound.shortest ⟨hg.wellFormed, hw, hu⟩ hv
      (admissible_remaining hg.paced htop hzero htriangle hpl hp none) rfl

/-- The guided search and the plain one find paths of the same cost, or both find none, if positions
can be given to the nodes that have none such that no edge is shorter than the distance between its
ends. -/
theorem guided_agrees_with_plain (hg : g.Grown) (htop : 0 < topSpeed)
    (hzero : ∀ p, distance p p = 0) (htriangle : ∀ p q r, distance p r ≤ distance p q + distance q r)
    (hpl : Embedding g distance place) (hu : u.index < g.nodeCount) (hv : v.index < g.nodeCount) :
    (∃ f f', guided distance topSpeed g u v o none = .ok f ∧ g.plain u v o none = .ok f' ∧
      f.cost = f'.cost) ∨
    (guided distance topSpeed g u v o none = .error .noPath ∧
      g.plain u v o none = .error .noPath) :=
  have hw : g.Weighted o := fun _ _ _ => Exact.isWeight _
  Answers.agree hw (fun es hes => ⟨es, hes, rfl⟩) (fun es hes => ⟨es, hes, rfl⟩)
    (guided_answers hg htop hzero htriangle hpl hu hv) (plain_answers hg.wellFormed hw hu hv)

end Estimates

theorem guided_agrees_with_plain_oneRoad :
    let g : Network ℝ≥0∞ Nat := oneRoad 4 5 3
    let distance (p q : Nat) : ℝ≥0∞ := ((p - q + (q - p) : Nat) : ℝ≥0∞)
    let place (v : NodeId) : Nat := if v = ⟨0⟩ then 4 else 0
    (g.Grown ∧ (0 : ℝ≥0∞) < 120 ∧ (∀ p, distance p p = 0) ∧
      (∀ p q r, distance p r ≤ distance p q + distance q r) ∧ Embedding g distance place ∧
      1 < g.nodeCount ∧ 0 < g.nodeCount) ∧
    ((∃ f f', guided distance 120 g ⟨1⟩ ⟨0⟩ .time none = .ok f ∧
      g.plain ⟨1⟩ ⟨0⟩ .time none = .ok f' ∧ f.cost = f'.cost) ∨
    (guided distance 120 g ⟨1⟩ ⟨0⟩ .time none = .error .noPath ∧
      g.plain ⟨1⟩ ⟨0⟩ .time none = .error .noPath)) := by
  intro g distance place
  have hg : g.Grown := oneRoad_grown 4 5 3
  have hn : g.nodeCount = 2 := nodeCount_oneRoad 4 5 3
  have htop : (0 : ℝ≥0∞) < 120 := by norm_num
  have hzero : ∀ p, distance p p = 0 := fun p => by simp [distance]
  have htriangle : ∀ p q r, distance p r ≤ distance p q + distance q r := fun p q r => by
    simp only [distance]
    exact_mod_cast (by omega : p - r + (r - p) ≤ p - q + (q - p) + (q - r + (r - q)))
  have hpl : Embedding g distance place := by
    constructor
    · rintro ⟨_ | _ | n⟩ p hp
      · simpa [g, position?, node?, nodes_oneRoad, place] using hp
      · simp [g, position?, node?, nodes_oneRoad] at hp
      · simp [g, position?, node?, nodes_oneRoad] at hp
    · intro v e he
      obtain ⟨rfl, rfl⟩ := mem_out_oneRoad 4 5 3 he
      simp [distance, place]
      norm_num
  exact ⟨⟨hg, htop, hzero, htriangle, hpl, by omega, by omega⟩,
    guided_agrees_with_plain hg htop hzero htriangle hpl (by simp [hn]) (by simp [hn])⟩

end RoadRouting.Network
