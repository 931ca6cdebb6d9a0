import RoadRouting.Proofs.Network.Counts
import RoadRouting.Proofs.Network.Floats

/-!
# The tables of a network

A network keeps its nodes, their identifiers, its classes, a count of its edges and its fastest speed
side by side. Whatever is asked of it, and whether or not there is room, these agree (`Tabled`), and
nothing it was told is taken back (`Keeps`): both hold of every network that is grown
(`Grown.tabled_keeps`).
-/

namespace RoadRouting.Network
set_option autoImplicit false
open Binary64 (IsPositive)

variable {α π : Type}

/-! ## Counts -/

section Counts
variable {g g' : Network α π}

/-- Changing one item of a list changes what the list is mapped to at that item. -/
theorem length_flatMap_modify {β γ : Type} (f : β → β) (out : β → List γ) {items : List β} {i : Nat}
    {x : β} (hx : items[i]? = some x) : ((items.modify i f).flatMap out).length + (out x).length =
      (items.flatMap out).length + (out (f x)).length := by
  induction items generalizing i with
  | nil => simp at hx
  | cons y rest ih =>
    cases i with
    | zero =>
      obtain rfl : y = x := by simpa using hx
      simp only [List.modify_cons, if_true, List.flatMap_cons, List.length_append]
      omega
    | succ i =>
      have hrest := ih (by simpa using hx)
      simp only [List.modify_cons, Nat.succ_ne_zero, if_false, Nat.succ_sub_one, List.flatMap_cons,
        List.length_append]
      omega

theorem length_putEdge (e : Edge α) (es : List (Edge α)) : (putEdge e es).length =
    if (es.find? fun f => f.target = e.target).isNone then es.length + 1 else es.length := by
  induction es with
  | nil => rfl
  | cons f rest ih =>
    unfold putEdge
    by_cases hf : f.target = e.target
    · simp [hf]
    · simp only [hf, if_false, List.length_cons, ih, List.find?_cons, decide_false]
      split <;> rfl

theorem node?_of_lt {v : NodeId} (hv : v.index < g.nodeCount) :
    ∃ n, g.node? v = some n := by
  cases hn : g.node? v with
  | none => exact absurd hv (Nat.not_lt.2 (node?_eq_none_iff.1 hn))
  | some n => exact ⟨n, rfl⟩

theorem edges_withNode (id : Int64) (p : Option π) : (g.withNode id p).edges = g.edges := by
  simp [edges, withNode]

theorem length_edges_moved (v : NodeId) (p : π) : (g.moved v p).edges.length = g.edges.length := by
  have hnodes : (g.moved v p).nodes.toList =
      g.nodes.toList.modify v.index fun n => { n with position := some p } := Array.toList_modify
  unfold edges
  rw [hnodes]
  cases hn : g.nodes.toList[v.index]? with
  | none => rw [List.modify_eq_self (List.getElem?_eq_none_iff.1 hn)]
  | some n =>
    have hlength := length_flatMap_modify (fun n : Node α π => { n with position := some p })
      (fun n => n.out) hn
    dsimp only at hlength
    omega

variable [Quantity α]

/-- The edges become more as the count of edges does. -/
theorem length_edges_withRoad {u : NodeId} {e : Edge α} (hu : u.index < g.nodeCount) :
    (g.withRoad u e).edges.length =
      if (g.edge? u e.target).isNone then g.edges.length + 1 else g.edges.length := by
  have hnodes : (g.withRoad u e).nodes.toList =
      g.nodes.toList.modify u.index fun n => { n with out := putEdge e n.out } := by
    rw [nodes_withRoad]
    exact Array.toList_modify
  obtain ⟨n, hn⟩ := node?_of_lt hu
  have hout : g.out u = n.out := by simp [out, hn]
  have hitem : g.nodes.toList[u.index]? = some n := by
    rw [Array.getElem?_toList]
    exact hn
  have hlength := length_flatMap_modify (fun n : Node α π => { n with out := putEdge e n.out })
    (fun n => n.out) hitem
  simp only [length_putEdge] at hlength
  unfold edges edge?
  rw [hnodes, hout]
  split at hlength
  · rw [if_pos ‹_›]
    omega
  · rw [if_neg ‹_›]
    omega

theorem Grown.edgeCount_eq_length (h : g.Grown) : g.edgeCount = g.edges.length := by
  refine h.induct (P := fun g => g.edgeCount = g.edges.length) rfl fun g g' hu ih => ?_
  cases hu with
  | node id p _ _ => rwa [edges_withNode]
  | position v p => rwa [length_edges_moved]
  | name n _ _ => exact ih
  | road u e hu _ => rw [length_edges_withRoad hu, edgeCount_withRoad, ih]

/-- The number that no node has stays free. -/
theorem Grown.nodeCount_le (h : g.Grown) : g.nodeCount ≤ NodeId.invalid.index := by
  refine h.induct (P := fun g => g.nodeCount ≤ NodeId.invalid.index) (Nat.zero_le _) fun g g' hu ih => ?_
  cases hu with
  | node id p _ hn =>
    rw [nodeCount_withNode]
    exact hn
  | position v p => rwa [nodeCount_moved]
  | name n _ _ => exact ih
  | road u e _ _ => rwa [nodeCount_withRoad]

end Counts

/-! ## The fastest speed -/

section Fastest
variable [Quantity α] {g g' : Network α π}

theorem fastest_noteSpeed_cases (g : Network α π) (length travel : α) :
    ((g.noteSpeed length travel).fastest = g.fastest ∧
        (0 < length → ¬ g.fastest < speedOf length travel)) ∨
      ((g.noteSpeed length travel).fastest = speedOf length travel ∧
        g.fastest < speedOf length travel) := by
  unfold noteSpeed
  by_cases hl : 0 < length
  · simp only [if_pos hl]
    split
    · rename_i h
      exact .inr ⟨rfl, h⟩
    · rename_i h
      exact .inl ⟨rfl, fun _ => h⟩
  · rw [if_neg hl]
    exact .inl ⟨rfl, fun h => absurd h hl⟩

theorem Update.fastest (hu : Update g g') : g'.fastest = g.fastest ∨ g.fastest < g'.fastest := by
  cases hu with
  | node id p _ _ => exact .inl rfl
  | position v p => exact .inl rfl
  | name n _ _ => exact .inl rfl
  | road u e _ _ =>
    rw [fastest_withRoad]
    rcases g.fastest_noteSpeed_cases e.length e.travel with ⟨hsame, -⟩ | ⟨hraised, hlt⟩
    · exact .inl hsame
    · exact .inr (hraised ▸ hlt)

/-- No edge with a length is faster than the fastest speed. -/
def Topped (g : Network α π) : Prop :=
  ∀ v, ∀ e ∈ g.out v, 0 < e.length → ¬ g.fastest < speedOf e.length e.travel

theorem Topped.update [LawfulCost α] (h : g.Topped) (hu : Update g g') : g'.Topped := by
  intro v e he hpos
  rcases hu.mem_out he with hold | ⟨u, rfl⟩
  · rcases hu.fastest with hsame | hlt
    · rw [hsame]
      exact h v e hold hpos
    · exact fun hbelow => h v e hold hpos (LawfulCost.lt_trans hlt hbelow)
  · rw [fastest_withRoad]
    rcases g.fastest_noteSpeed_cases e.length e.travel with ⟨hsame, hnot⟩ | ⟨hraised, -⟩
    · rw [hsame]
      exact hnot hpos
    · rw [hraised]
      exact LawfulCost.lt_irrefl _

theorem Grown.topped [LawfulCost α] (h : g.Grown) : g.Topped :=
  h.induct (fun v e he => by simp [out, node?, Network.empty] at he) fun _ _ hu ih => ih.update hu

end Fastest

section Floats
variable {g g' : Network Float π}

theorem Grown.isPositive_fastest (h : g.Grown) : IsPositive g.fastest := by
  refine h.induct (P := fun g => IsPositive g.fastest) isPositive_zero fun g g' hu ih => ?_
  rcases hu.fastest with hsame | hlt
  · rwa [hsame]
  · exact ih.of_lt hlt

/-- What is not below a number is no number, or not above it. -/
theorem le_of_not_lt_float {x y : Float} (hx : IsPositive x) (hy : y.isNaN = false) (h : ¬ x < y) :
    y ≤ x := by
  rw [Binary64.lt_iff] at h
  exact Binary64.le_iff.2 ⟨hy, hx.isNaN, not_lt.1 fun hlt => h ⟨hx.isNaN, hy, hlt⟩⟩

theorem eq_infinite_of_not_lt {x : Float} (hx : IsPositive x) (h : ¬ x < Cost.infinite) :
    x = Cost.infinite := by
  rw [hx.lt_iff isPositive_infinite, bits_infinite] at h
  exact Binary64.bits_injective ((le_antisymm hx (not_lt.1 h)).trans bits_infinite.symm)

/-! ## Agreement -/

/-- The tables of a network agree with each other. -/
structure Tabled (g : Network Float π) : Prop where
  /-- A number below the count has a node and its list of edges, and no other number has any. -/
  rows : ∀ v, (v.index < g.nodeCount → ∃ n, g.node? v = some n ∧ g.out v = n.out) ∧
    (g.nodeCount ≤ v.index → g.node? v = none ∧ g.out v = [])
  /-- The numbers below the count are those of identifiers, -/
  numbered : ∀ v, v.index < g.nodeCount ↔ ∃ id, g.lookup id = some v
  /-- each of them of one, -/
  injective : ∀ id id' v, g.lookup id = some v → g.lookup id' = some v → id = id'
  /-- which is that of its node, -/
  identified : ∀ id v, g.lookup id = some v ↔ g.id? v = some id
  /-- and none is the number that no node has. -/
  valid : ∀ id v, g.lookup id = some v → v ≠ NodeId.invalid
  targets : ∀ v, ∀ e ∈ g.out v, e.target.index < g.nodeCount
  distinct : ∀ v, ((g.out v).map (·.target)).Nodup
  counted : g.edgeCount = g.edges.length
  /-- Names and numbers of classes belong to each other. -/
  classes : ∀ (n : String) (c : ClassId), g.classNumbers[n]? = some c ↔ g.classes[c.index]? = some n
  inRange : ∀ v, ∀ e ∈ g.out v, e.className.index < g.classes.size
  /-- No edge with a length is faster than the fastest speed, -/
  fastest : ∀ v, ∀ e ∈ g.out v, 0 < e.length → 0 < e.travel →
    (e.length / e.travel * 3.6).isNaN = false → e.length / e.travel * 3.6 ≤ g.fastest
  /-- which is infinite if one takes no time. -/
  infinite : ∀ v, ∀ e ∈ g.out v, 0 < e.length → ¬ 0 < e.travel → g.fastest = Cost.infinite

theorem Grown.tabled (h : g.Grown) : g.Tabled where
  rows v := by
    refine ⟨fun hv => ?_, fun hv => ?_⟩
    · obtain ⟨n, hn⟩ := node?_of_lt hv
      exact ⟨n, hn, by simp [out, hn]⟩
    · have hn := node?_eq_none_iff.2 hv
      exact ⟨hn, by simp [out, hn]⟩
  numbered v := by
    simp only [h.wellFormed.lookup_iff, ← id?_isSome_iff, Option.isSome_iff_exists]
  injective id id' v hid hid' := h.wellFormed.id_unique hid hid'
  identified := h.wellFormed.lookup_iff
  valid id v hid := by
    rintro rfl
    exact absurd (h.wellFormed.index_lt hid) (Nat.not_lt.2 h.nodeCount_le)
  targets := h.wellFormed.targets
  distinct := h.wellFormed.distinct
  counted := h.edgeCount_eq_length
  classes := h.classified.number_iff
  inRange := h.classified.inRange
  fastest v e he hl ht hnum := by
    have hspeed : speedOf e.length e.travel = e.length / e.travel * 3.6 := if_pos ht
    have hnot := h.topped v e he hl
    rw [hspeed] at hnot
    exact le_of_not_lt_float h.isPositive_fastest hnum hnot
  infinite v e he hl ht := by
    have hspeed : speedOf e.length e.travel = Cost.infinite := if_neg ht
    have hnot := h.topped v e he hl
    rw [hspeed] at hnot
    exact eq_infinite_of_not_lt h.isPositive_fastest hnot

/-! ## What stays -/

/-- What a network was told is not taken back. -/
structure Keeps (g g' : Network Float π) : Prop where
  lookup : ∀ id v, g.lookup id = some v → g'.lookup id = some v
  node : ∀ v id, g.id? v = some id → g'.id? v = some id
  edge : ∀ u v, (g.edge? u v).isSome → (g'.edge? u v).isSome
  position : ∀ v, (g.position? v).isSome → (g'.position? v).isSome
  fastest : g.fastest ≤ g'.fastest

theorem Update.edge? [Quantity α] {g g' : Network α π} (hu : Update g g') {u v : NodeId}
    (h : (g.edge? u v).isSome) : (g'.edge? u v).isSome := by
  cases hu with
  | node id p _ _ => rwa [edge?_withNode]
  | position w p => rwa [edge?_moved]
  | name n _ _ => exact h
  | road w e hw _ =>
    rw [edge?_withRoad hw]
    split
    · rfl
    · exact h

theorem Update.position? [Quantity α] {g g' : Network α π} (hu : Update g g') {v : NodeId}
    (h : (g.position? v).isSome) : (g'.position? v).isSome := by
  cases hu with
  | node id p _ _ =>
    rw [position?_withNode, if_neg]
    · exact h
    · rintro rfl
      have hnone : g.node? ⟨g.nodeCount⟩ = none := node?_eq_none_iff.2 (le_refl _)
      simp [Network.position?, hnone] at h
  | position w p =>
    unfold Network.position? at h ⊢
    rw [node?_moved]
    cases hn : g.node? v with
    | none => simp [hn] at h
    | some n =>
      simp only [hn, Option.bind_some] at h
      simp only [Option.map_some, Option.bind_some]
      split
      · rfl
      · exact h
  | name n _ _ => exact h
  | road u e _ _ => rwa [position?_withRoad]

theorem Keeps.refl (h : IsPositive g.fastest) : Keeps g g :=
  ⟨fun _ _ h => h, fun _ _ h => h, fun _ _ h => h, fun _ h => h, (h.le_iff h).2 (le_refl _)⟩

theorem Keeps.trans {g'' : Network Float π} (h : Keeps g g') (h' : Keeps g' g'') : Keeps g g'' where
  lookup id v hv := h'.lookup id v (h.lookup id v hv)
  node v id hv := h'.node v id (h.node v id hv)
  edge u v he := h'.edge u v (h.edge u v he)
  position v hp := h'.position v (h.position v hp)
  fastest := by
    obtain ⟨hnum, -, hle⟩ := Binary64.le_iff.1 h.fastest
    obtain ⟨-, hnum', hle'⟩ := Binary64.le_iff.1 h'.fastest
    exact Binary64.le_iff.2 ⟨hnum, hnum', hle.trans hle'⟩

theorem Update.keeps (hg : g.WellFormed) (hp : IsPositive g.fastest) (hu : Update g g') :
    Keeps g g' where
  lookup _ _ := hu.lookup
  node v id hv := ((hg.update hu).lookup_iff id v).1 (hu.lookup ((hg.lookup_iff id v).2 hv))
  edge _ _ := hu.edge?
  position _ := hu.position?
  fastest := by
    rcases hu.fastest with hsame | hlt
    · rw [hsame]
      exact (hp.le_iff hp).2 (le_refl _)
    · obtain ⟨hnum, hnum', hlt⟩ := Binary64.lt_iff.1 hlt
      exact Binary64.le_iff.2 ⟨hnum, hnum', hlt.le⟩

theorem Updates.keeps (hg : g.WellFormed) (hp : IsPositive g.fastest) (hu : Updates g g') :
    Keeps g g' := by
  have hall : Keeps g g' ∧ IsPositive g'.fastest := by
    induction hu with
    | refl => exact ⟨.refl hp, hp⟩
    | tail hsteps hlast ih =>
      refine ⟨ih.1.trans (hlast.keeps (hg.updates hsteps) ih.2), ?_⟩
      rcases hlast.fastest with hsame | hlt
      · rw [hsame]
        exact ih.2
      · exact ih.2.of_lt hlt
  exact hall.1

/-- The tables of a network agree however it was grown, and whatever is asked of it next, it keeps what
it was told, also where it has no room. -/
theorem Grown.tabled_keeps (h : g.Grown) : g.Tabled ∧
    (∀ id p, Keeps g (g.place id p).2) ∧
    (∀ id, Keeps g (g.ensure id).2) ∧
    ∀ source target length travel className,
      Keeps g (g.addEdge source target length travel className).2 := by
  have hkeeps {g' : Network Float π} (hu : Updates g g') : Keeps g g' :=
    Updates.keeps h.wellFormed h.isPositive_fastest hu
  refine ⟨h.tabled, fun id p => hkeeps (g.place_updates id p), fun id => ?_, ?_⟩
  · exact hkeeps (updates_of_joins (g.ensure_joins id))
  · intro source target length travel className
    exact hkeeps (updates_of_joins (addEdge_joins h.wellFormed source target length travel className))

/-- A road that takes no time makes the fastest speed infinite, and a slower one does not lower it. -/
theorem tabled_keeps_oneRoad :
    let g : Network Float Nat := oneRoad 4 5 0
    g.Grown ∧ g.Tabled ∧ g.fastest = Cost.infinite ∧
      Keeps g (g.addEdge 1 2 5 3 "road").2 := by
  intro g
  have hg : g.Grown := oneRoad_grown 4 5 0
  obtain ⟨htabled, -, -, hkeeps⟩ := hg.tabled_keeps
  have he : (⟨⟨0⟩, 5, 0, ⟨0⟩⟩ : Edge Float) ∈ g.out ⟨1⟩ := by
    simp [g, out, node?, nodes_oneRoad]
  exact ⟨hg, htabled, htabled.infinite ⟨1⟩ _ he (by decide +kernel) (by decide +kernel),
    hkeeps 1 2 5 3 "road"⟩

end Floats
end RoadRouting.Network
