import RoadRouting.Proofs.Network.Expansions
import RoadRouting.Proofs.Network.Overestimates
import RoadRouting.Proofs.Network.Tables

/-!
# Limits of steps that suffice

A limit of steps never changes an answer: a search gives up or answers what it does without a limit
(`Limited`). The search without estimates never gives up within as many steps as there are nodes but one,
since it expands no node twice, whatever the rounding of sums is. With exact costs the guided search does
not either, if all nodes have positions and no edge is shorter than the distance between its ends: a metre
then costs no edge less than the estimate has for it (`limits_suffice`).
-/

namespace RoadRouting.Network
set_option autoImplicit false

variable {α π : Type}

/-- What a limit of steps does to a search between two nodes. -/
structure Limited (find : Option Nat → Except SearchFault (Found α)) : Prop where
  /-- Without a limit it never gives up. -/
  unlimited : find none ≠ .error .stepLimit
  /-- With one it gives up or answers the same. -/
  same : ∀ n, find (some n) = .error .stepLimit ∨ find (some n) = find none
  /-- What it answers within a limit it answers within a larger one. -/
  larger : ∀ m n, m ≤ n → find (some m) ≠ .error .stepLimit → find (some n) = find (some m)

section Limits
variable [Quantity α] [LawfulCost α] {g : Network α π} {o : Objective} {u v : NodeId}

omit [Quantity α] [LawfulCost α] in
theorem search_of_unknown [Cost α] {q : Query α} {w : NodeId}
    (h : g.unknown? [q.source, q.target] = some w) : g.search q = .error (.unknownNode w) := by
  unfold search
  rw [h]

theorem limited_search (hg : g.WellFormed) (hw : g.Weighted o) (u v : NodeId) (estimate : NodeId → α) :
    Limited fun limit => g.search ⟨u, v, o, estimate, limit⟩ where
  unlimited := by
    cases hknown : g.unknown? [u, v] with
    | some w =>
      rw [search_of_unknown (q := ⟨u, v, o, estimate, none⟩) hknown]
      exact nofun
    | none =>
      have hboth : u.index < g.nodeCount ∧ v.index < g.nodeCount := by
        simpa [unknown?, List.find?_eq_none] using hknown
      have hleads := Query.Sound.leads (q := ⟨u, v, o, estimate, none⟩) ⟨hg, hw, hboth.1⟩ hboth.2 rfl
      intro hgave
      simp only at hleads
      rw [hgave] at hleads
      cases hleads.1
  same n := by
    by_cases hgave : g.search ⟨u, v, o, estimate, some n⟩ = .error .stepLimit
    · exact .inl hgave
    · exact .inr (search_of_within (State.noSmaller_none (some n)) hgave).symm
  larger m n hmn hanswered :=
    search_of_within (q := ⟨u, v, o, estimate, some m⟩) (State.noSmaller_some hmn) hanswered

theorem limited_guided (hg : g.WellFormed) (hw : g.Weighted o) (u v : NodeId) (distance : π → π → α)
    (topSpeed : α) : Limited (guided distance topSpeed g u v o) := by
  unfold guided
  cases g.position? v with
  | none => exact limited_search hg hw u v _
  | some p => exact limited_search hg hw u v _

/-- Estimates of nothing are consistent. -/
theorem consistent_zero (hw : g.Weighted o) (limit : Option Nat) :
    (⟨u, v, o, fun _ => 0, limit⟩ : Query α).Consistent g where
  source := LawfulCost.add_zero .zero
  lt x a b ha hb hab _ := by
    rw [LawfulCost.add_zero ha, LawfulCost.add_zero hb]
    exact LawfulCost.rank_of_lt hab
  edge x e he c hc _ hlt := by
    have htrans : Std.TransCmp (Cost.rank : α → α → Ordering) := LawfulCost.rank_trans
    rw [LawfulCost.add_zero (hc.add (hw x e he)), LawfulCost.add_zero hc] at hlt
    rcases hc.le_add (hw x e he) with hrise | hsame
    · rw [Std.OrientedCmp.gt_of_lt (LawfulCost.rank_of_lt hrise)] at hlt
      cases hlt
    · have hself : Cost.rank c c = .eq := Std.ReflCmp.compare_self
      rw [← hsame, hself] at hlt
      cases hlt

end Limits

/-! ## Exact costs -/

section Real
variable {g : Network EReal π} {o : Objective} {u v : NodeId} {distance : π → π → ℝ} {topSpeed : EReal}

/-- All nodes have positions, and no edge is shorter than the distance between its ends. -/
structure Spanned (g : Network EReal π) (distance : π → π → ℝ) : Prop where
  placed : ∀ x, x.index < g.nodeCount → ∃ p, g.position? x = some p
  length : ∀ x, ∀ e ∈ g.out x, ∀ p q, g.position? x = some p → g.position? e.target = some q →
    (distance p q : EReal) ≤ e.length

/-- At the pace of a top speed a distance that is no longer than an edge takes no more time than the edge
does. -/
theorem mul_pace_le {d : ℝ} {length travel top : EReal} (htop : 0 < top) (ht : 0 ≤ travel)
    (hd : (d : EReal) ≤ length) (h : 0 < length → speedOf length travel ≤ top) :
    (d : EReal) * (((3.6 : ℝ) : EReal) / top) ≤ travel := by
  induction top with
  | bot => exact absurd htop (by simp)
  | top => simpa using ht
  | coe m =>
    have hm : 0 < m := EReal.coe_pos.1 htop
    rw [← EReal.coe_div, ← EReal.coe_mul]
    rcases le_or_gt d 0 with hneg | hpos
    · have hle : d * (3.6 / m) ≤ 0 := mul_nonpos_of_nonpos_of_nonneg hneg (by positivity)
      exact (EReal.coe_nonpos.2 hle).trans ht
    · have hspeed := h ((EReal.coe_pos.2 hpos).trans_le hd)
      unfold speedOf at hspeed
      induction travel with
      | bot => exact absurd ht (by simp)
      | top => exact le_top
      | coe t =>
        split at hspeed
        · rename_i hpos'
          have ht' : 0 < t := EReal.coe_pos.1 hpos'
          have hreal : ((d / t * 3.6 : ℝ) : EReal) ≤ (m : EReal) := by
            refine le_trans ?_ hspeed
            rw [EReal.coe_mul, EReal.coe_div]
            refine mul_le_mul_of_nonneg_right ?_ (EReal.coe_nonneg.2 (by norm_num))
            exact EReal.div_le_div_right_of_nonneg ht hd
          have hle : d / t * 3.6 ≤ m := EReal.coe_le_coe_iff.1 hreal
          refine EReal.coe_le_coe_iff.2 ?_
          rw [div_mul_eq_mul_div, div_le_iff₀ ht'] at hle
          rw [← mul_div_assoc, div_le_iff₀ hm]
          linarith
        · exact absurd hspeed (not_le.2 (EReal.coe_lt_top m))

/-- The least cost of a metre is a real number that is not negative. -/
theorem costPerMetre_real (htop : 0 < topSpeed) : ∃ c : ℝ, 0 ≤ c ∧ g.costPerMetre o topSpeed = c := by
  cases o with
  | time =>
    obtain ⟨c, hc⟩ := div_real 3.6 (max topSpeed g.fastest)
    refine ⟨c, ?_, hc⟩
    have hpos : (0 : EReal) ≤ ((3.6 : ℝ) : EReal) / max topSpeed g.fastest :=
      EReal.div_nonneg (EReal.coe_nonneg.2 (by norm_num)) (le_max_of_le_left htop.le)
    rw [hc] at hpos
    exact EReal.coe_nonneg.1 hpos
  | distance => exact ⟨1, zero_le_one, rfl⟩

/-- A distance that is no longer than an edge costs no more than the edge. -/
theorem mul_costPerMetre_le (hg : g.Grown) (hw : g.Weighted o) (htop : 0 < topSpeed) {x : NodeId}
    {e : Edge EReal} (he : e ∈ g.out x) {d : ℝ} (hd : (d : EReal) ≤ e.length) :
    (d : EReal) * g.costPerMetre o topSpeed ≤ e.cost o := by
  have hcost := Exact.nonneg_of_isWeight (hw x e he)
  cases o with
  | time =>
    refine mul_pace_le (lt_max_of_lt_left htop) hcost hd fun hl => ?_
    exact (not_lt.1 (hg.topped x e he hl)).trans (le_max_right _ _)
  | distance => exact (mul_one (d : EReal)).le.trans hd

/-- At one pace, a way that is no longer than two others together costs no more than they do. -/
theorem mul_le_add_mul {whole part rest pace : ℝ} {cost : EReal} (hpace : 0 ≤ pace)
    (h : whole ≤ part + rest) (hcost : (part : EReal) * pace ≤ cost) :
    (whole : EReal) * pace ≤ cost + (rest : EReal) * pace := by
  have hreal : whole * pace ≤ part * pace + rest * pace := by
    rw [← add_mul]
    exact mul_le_mul_of_nonneg_right h hpace
  calc (whole : EReal) * pace = ((whole * pace : ℝ) : EReal) := (EReal.coe_mul _ _).symm
    _ ≤ ((part * pace + rest * pace : ℝ) : EReal) := EReal.coe_le_coe_iff.2 hreal
    _ = (part : EReal) * pace + (rest : EReal) * pace := by
        rw [EReal.coe_add, EReal.coe_mul, EReal.coe_mul]
    _ ≤ cost + (rest : EReal) * pace := add_le_add_left hcost _

/-- The estimates of the guided search are consistent. -/
theorem consistent_remaining (hg : g.Grown) (hw : g.Weighted o) (htop : 0 < topSpeed)
    (htriangle : ∀ p q r, distance p r ≤ distance p q + distance q r) (hs : Spanned g distance) (p : π)
    (limit : Option Nat) :
    (⟨u, v, o, fun x => g.remaining (fun a b => (distance a b : EReal)) p x * g.costPerMetre o topSpeed,
      limit⟩ : Query EReal).Consistent g where
  source := zero_add _
  lt x a b _ _ hab hfin := (strict_of_real (q := ⟨u, v, o, _, limit⟩) fun y =>
    remaining_real (g := g) (o := o) distance topSpeed p y).lt x a b hab hfin
  edge x e he c _ _ := by
    obtain ⟨a, ha⟩ := hs.placed x (index_lt_of_mem_out he)
    obtain ⟨b, hb⟩ := hs.placed e.target (hg.wellFormed.targets x e he)
    obtain ⟨k, hk, hpace⟩ := costPerMetre_real (g := g) (o := o) htop
    have hedge := mul_costPerMetre_le hg hw htop he (hs.length x e he a b ha hb)
    have hfalls := mul_le_add_mul hk (htriangle a b p) (hpace ▸ hedge)
    have hscore : c + (distance a p : EReal) * k ≤ c + e.cost o + (distance b p : EReal) * k := by
      rw [add_assoc]
      exact add_le_add_right hfalls c
    simp only [remaining, ha, hb, hpace]
    exact fun hlt => absurd (compare_lt_iff_lt.1 hlt) (not_lt.2 hscore)

end Real

/-! ## Limits -/

/-- The search between two nodes never gives up within so many steps as there are nodes but one, if its
estimates are consistent. -/
theorem search_ne_stepLimit [Quantity α] [LawfulCost α] {g : Network α π} {o : Objective} {u v : NodeId}
    {estimate : NodeId → α} {n : Nat} (hg : g.WellFormed) (hw : g.Weighted o)
    (hc : (⟨u, v, o, estimate, some n⟩ : Query α).Consistent g) (hn : g.nodeCount - 1 ≤ n) :
    g.search ⟨u, v, o, estimate, some n⟩ ≠ .error .stepLimit := by
  cases hknown : g.unknown? [u, v] with
  | some w =>
    rw [search_of_unknown (q := ⟨u, v, o, estimate, some n⟩) hknown]
    exact nofun
  | none =>
    obtain ⟨hu, hv⟩ : u.index < g.nodeCount ∧ v.index < g.nodeCount := by
      simpa [unknown?, List.find?_eq_none] using hknown
    refine hc.search_ne_stepLimit ⟨hg, hw, hu⟩ hv fun m hm => ?_
    obtain rfl : n = m := Option.some.inj hm
    exact hn

/-- A limit of steps changes no answer, and one of as many steps as there are nodes but one is never
exceeded, by the search without estimates and, with exact costs, by the guided search. -/
theorem limits_suffice :
    (∀ (α : Type) [Quantity α] [LawfulCost α] (g : Network α π) (o : Objective), g.Grown →
      g.Weighted o → ∀ u v,
      Limited (g.plain u v o) ∧
      (∀ (distance : π → π → α) (topSpeed : α), Limited (g.guided distance topSpeed u v o)) ∧
      (u.index < g.nodeCount → v.index < g.nodeCount → ∀ limit,
        ExpandsOnce g ⟨u, v, o, fun _ => 0, limit⟩) ∧
      ∀ n, g.nodeCount - 1 ≤ n → g.plain u v o (some n) ≠ .error .stepLimit) ∧
    ∀ (g : Network EReal π) (o : Objective), g.Grown → g.Weighted o →
      ∀ (distance : π → π → ℝ) (topSpeed : EReal), 0 < topSpeed →
      (∀ p q r, distance p r ≤ distance p q + distance q r) → Spanned g distance → ∀ u v n,
      g.nodeCount - 1 ≤ n →
      g.guided (fun a b => (distance a b : EReal)) topSpeed u v o (some n) ≠ .error .stepLimit := by
  constructor
  · intro α _ _ g o hg hw u v
    refine ⟨limited_search hg.wellFormed hw u v _, ?_, ?_, ?_⟩
    · exact limited_guided hg.wellFormed hw u v
    · intro hu hv limit
      exact (consistent_zero hw limit).expandsOnce ⟨hg.wellFormed, hw, hu⟩ hv
    · intro n hn
      exact search_ne_stepLimit hg.wellFormed hw (consistent_zero hw (some n)) hn
  · intro g o hg hw distance topSpeed htop htriangle hs u v n hn
    unfold guided
    cases g.position? v with
    | none => exact search_ne_stepLimit hg.wellFormed hw (consistent_zero hw (some n)) hn
    | some p =>
      have hc := consistent_remaining (u := u) (v := v) hg hw htop htriangle hs p (some n)
      exact search_ne_stepLimit hg.wellFormed hw hc hn

/-! ## A road between two nodes with positions -/

section PlacedRoad
variable [Quantity α] (far near : π) (length travel : α)

/-- One road, from a node that has a position as well. -/
def placedRoad : Network α π := ((oneRoad far length travel).place 1 near).2

theorem placedRoad_eq : placedRoad far near length travel = (oneRoad far length travel).moved ⟨1⟩ near := by
  have hg : (oneRoad far length travel).Grown := oneRoad_grown far length travel
  have hlookup : (oneRoad far length travel).lookup 1 = some ⟨1⟩ :=
    (hg.wellFormed.lookup_iff 1 ⟨1⟩).2 (by simp [id?, node?, nodes_oneRoad])
  simp only [placedRoad, place, hlookup, moved]

theorem nodeCount_placedRoad : (placedRoad far near length travel).nodeCount = 2 := by
  rw [placedRoad_eq, nodeCount_moved, nodeCount_oneRoad]

theorem mem_out_placedRoad {x : NodeId} {e : Edge α} (he : e ∈ (placedRoad far near length travel).out x) :
    x = ⟨1⟩ ∧ e = ⟨⟨0⟩, length, travel, ⟨0⟩⟩ := by
  rw [placedRoad_eq, out_moved] at he
  exact mem_out_oneRoad far length travel he

theorem position?_placedRoad : (placedRoad far near length travel).position? ⟨0⟩ = some far ∧
    (placedRoad far near length travel).position? ⟨1⟩ = some near := by
  have hn : (1 : Nat) < (oneRoad far length travel).nodeCount := by simp [nodeCount_oneRoad]
  rw [placedRoad_eq, position?_moved hn, position?_moved hn]
  simp [position?, node?, nodes_oneRoad]

end PlacedRoad

theorem spanned_placedRoad {far near : π} {length travel : EReal} {distance : π → π → ℝ}
    (h : (distance near far : EReal) ≤ length) : Spanned (placedRoad far near length travel) distance := by
  obtain ⟨hfar, hnear⟩ := position?_placedRoad far near length travel
  constructor
  · rintro ⟨_ | _ | n⟩ hx
    · exact ⟨far, hfar⟩
    · exact ⟨near, hnear⟩
    · rw [nodeCount_placedRoad] at hx
      exact absurd hx (by simp)
  · intro x e he p q hp hq
    obtain ⟨rfl, rfl⟩ := mem_out_placedRoad far near length travel he
    rw [hnear] at hp
    rw [hfar] at hq
    cases hp
    cases hq
    exact h

/-- One step is enough for one road, whether or not it is searched for with estimates. -/
theorem limits_suffice_oneRoad :
    let g : Network Float Nat := oneRoad 4 5 3
    let placed : Network EReal ℝ := placedRoad 4 0 5 3
    let distance (p q : ℝ) : ℝ := |p - q|
    (g.Grown ∧ g.Weighted .time ∧ g.nodeCount - 1 ≤ 1 ∧ 1 < g.nodeCount ∧ 0 < g.nodeCount ∧
      placed.Grown ∧ placed.Weighted .time ∧ (0 : EReal) < 50 ∧
      (∀ p q r, distance p r ≤ distance p q + distance q r) ∧ Spanned placed distance ∧
      placed.nodeCount - 1 ≤ 1) ∧
    Limited (g.plain ⟨1⟩ ⟨0⟩ .time) ∧
    Limited (g.guided (fun p q => Float.ofNat (p - q + (q - p))) 50 ⟨1⟩ ⟨0⟩ .time) ∧
    ExpandsOnce g ⟨⟨1⟩, ⟨0⟩, .time, fun _ => 0, some 1⟩ ∧
    g.plain ⟨1⟩ ⟨0⟩ .time (some 1) ≠ .error .stepLimit ∧
    placed.guided (fun p q => (distance p q : EReal)) 50 ⟨1⟩ ⟨0⟩ .time (some 1) ≠
      .error .stepLimit := by
  intro g placed distance
  have hg : g.Grown := oneRoad_grown 4 5 3
  have hn : g.nodeCount = 2 := nodeCount_oneRoad 4 5 3
  have hn' : placed.nodeCount = 2 := nodeCount_placedRoad 4 0 5 3
  have hw : g.Weighted .time := by
    intro x e he
    obtain ⟨-, rfl⟩ := mem_out_oneRoad 4 5 3 he
    exact ⟨by decide +kernel, .inl (by decide +kernel)⟩
  have hw' : placed.Weighted .time := by
    intro x e he
    obtain ⟨-, rfl⟩ := mem_out_placedRoad 4 0 5 3 he
    exact Exact.isWeight_of_nonneg (by simp [Edge.cost])
  have hg' : placed.Grown := .place 1 0 (oneRoad_grown 4 5 3)
  have htop : (0 : EReal) < 50 := by norm_num
  have htriangle : ∀ p q r, distance p r ≤ distance p q + distance q r := abs_sub_le
  have hs : Spanned placed distance := by
    have hfour : distance 0 4 ≤ 5 := by norm_num [distance]
    exact spanned_placedRoad (EReal.coe_le_coe_iff.2 hfour)
  obtain ⟨hplain, hguided, honce, hlimit⟩ := limits_suffice.1 Float g .time hg hw ⟨1⟩ ⟨0⟩
  refine ⟨⟨hg, hw, by omega, by omega, by omega, hg', hw', htop, htriangle, hs, by omega⟩, hplain,
    hguided _ _, honce (by simp [hn]) (by simp [hn]) (some 1), hlimit 1 (by omega), ?_⟩
  exact limits_suffice.2 placed .time hg' hw' distance 50 htop htriangle hs ⟨1⟩ ⟨0⟩ 1 (by omega)

end RoadRouting.Network
