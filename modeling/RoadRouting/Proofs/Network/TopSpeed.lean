import RoadRouting.Proofs.Network.Chart
import RoadRouting.Proofs.Network.Floats

/-!
# The fastest edge

The fastest speed of a network starts at nothing and is raised by edges with a length
(`IsTop.addEdge`). It is the top of their speeds, whatever their order: for floats there is
only one (`IsTop.unique`), also when some speed is no number, since that one never raises anything.
-/

namespace RoadRouting.Network
set_option autoImplicit false
open Binary64 (IsPositive bits signed)

variable {α π : Type}

/-- The speed of an edge; one without a length has none. -/
def speed? [Quantity α] (length travel : α) : Option α :=
  if 0 < length then some (speedOf length travel) else none

/-- A speed is above nothing and above no other one: it is one of some speeds, or there is none. -/
structure IsTop [Cost α] (speeds : List α) (top : α) : Prop where
  upper : ∀ s ∈ speeds, ¬ top < s
  attained : top = 0 ∨ top ∈ speeds ∧ 0 < top

section Top
variable [Cost α] {speeds speeds' : List α} {top : α}

theorem IsTop.nil : IsTop [] (0 : α) where
  upper s hs := by cases hs
  attained := .inl rfl

theorem IsTop.snoc [LawfulCost α] (h : IsTop speeds top) (s : α) :
    IsTop (speeds ++ [s]) (if top < s then s else top) := by
  by_cases hs : top < s
  · have hpos : 0 < s := by
      rcases h.attained with rfl | ⟨-, htop⟩
      · exact hs
      · exact LawfulCost.lt_trans htop hs
    rw [if_pos hs]
    refine ⟨fun t ht hst => ?_, .inr ⟨by simp, hpos⟩⟩
    rcases List.mem_append.1 ht with ht | ht
    · exact h.upper t ht (LawfulCost.lt_trans hs hst)
    · rw [List.mem_singleton.1 ht] at hst
      exact LawfulCost.lt_irrefl s hst
  · rw [if_neg hs]
    refine ⟨fun t ht => ?_, h.attained.imp_right fun ⟨hm, hpos⟩ => ⟨by simp [hm], hpos⟩⟩
    rcases List.mem_append.1 ht with ht | ht
    · exact h.upper t ht
    · rwa [List.mem_singleton.1 ht]

theorem IsTop.of_mem_iff (h : IsTop speeds top) (hs : ∀ s, s ∈ speeds ↔ s ∈ speeds') :
    IsTop speeds' top :=
  ⟨fun s hm => h.upper s ((hs s).2 hm), h.attained.imp_right fun ⟨hm, hpos⟩ => ⟨(hs _).1 hm, hpos⟩⟩

end Top

/-- There is one top speed. -/
theorem IsTop.unique {speeds : List Float} {top top' : Float} (h : IsTop speeds top)
    (h' : IsTop speeds top') : top = top' := by
  rcases h.attained with rfl | ⟨hm, hpos⟩
  · rcases h'.attained with rfl | ⟨hm', hpos'⟩
    · rfl
    · exact absurd hpos' (h.upper _ hm')
  · rcases h'.attained with rfl | ⟨hm', hpos'⟩
    · exact absurd hpos (h'.upper _ hm)
    · -- Neither is below the other and neither has a sign, so their bits are the same.
      obtain ⟨-, hnum, hlt⟩ := Binary64.lt_iff.1 hpos
      obtain ⟨-, hnum', hlt'⟩ := Binary64.lt_iff.1 hpos'
      have hle : ¬ signed (bits top) < signed (bits top') := fun hs =>
        h.upper _ hm' (Binary64.lt_iff.2 ⟨hnum, hnum', hs⟩)
      have hle' : ¬ signed (bits top') < signed (bits top) := fun hs =>
        h'.upper _ hm (Binary64.lt_iff.2 ⟨hnum', hnum, hs⟩)
      have hzero : signed (bits Zero.zero) = 0 := by rw [isPositive_zero.signed_eq, bits_zero]; rfl
      change signed (bits Zero.zero) < signed (bits top) at hlt
      change signed (bits Zero.zero) < signed (bits top') at hlt'
      rw [hzero] at hlt hlt'
      refine Binary64.bits_injective ?_
      unfold signed at hlt hlt' hle hle'
      split_ifs at hlt hlt' hle hle' <;> omega

/-! ## Raising it -/

section Raising
variable {g g' : Network α π}

theorem fastest_place {id : Int64} {p : π} {fresh : Bool} (h : g.place id p = (.ok fresh, g')) :
    g'.fastest = g.fastest := by
  obtain ⟨_, _, he⟩ := g.place_frame id p
  rw [h] at he
  obtain rfl : g' = _ := he
  rfl

theorem fastest_ensure {id : Int64} {v : NodeId} (h : g.ensure id = (.ok v, g')) :
    g'.fastest = g.fastest := by
  obtain ⟨_, _, he⟩ := g.ensure_frame id
  rw [h] at he
  obtain rfl : g' = _ := he
  rfl

theorem fastest_intern {n : String} {c : ClassId} (h : g.intern n = (.ok c, g')) :
    g'.fastest = g.fastest := by
  obtain ⟨_, _, he⟩ := g.intern_frame n
  rw [h] at he
  obtain rfl : g' = _ := he
  rfl

variable [Quantity α]

/-- The top stays the top when an edge is added. -/
theorem IsTop.addEdge [LawfulCost α] {speeds : List α} (ht : IsTop speeds g.fastest)
    {source target : Int64} {length travel : α} {className : String} {fresh : Bool}
    (h : g.addEdge source target length travel className = (.ok fresh, g')) :
    IsTop (speeds ++ (speed? length travel).toList) g'.fastest := by
  obtain ⟨h1, h2, h3, rfl⟩ := addEdge_added h
  rename_i u v c g₁ g₂ g₃
  have hfast : g₃.fastest = g.fastest := by
    rw [fastest_intern h3, fastest_ensure h2, fastest_ensure h1]
  rw [fastest_withRoad]
  unfold noteSpeed speed?
  by_cases hl : 0 < length
  · have hraised := ht.snoc (speedOf length travel)
    simp only [if_pos hl, Option.toList_some, hfast]
    rwa [apply_ite Network.fastest, hfast]
  · simp only [if_neg hl, Option.toList_none, List.append_nil, hfast]
    exact ht

end Raising
end RoadRouting.Network
