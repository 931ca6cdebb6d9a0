import RoadRouting.Proofs.Network.Tables

/-!
# What is new

An operation that succeeds tells whether what it did was new. Placing a node is new if the node had no
position, and then one more node has one (`placedCount_place`); adding an edge is new if it replaces none,
and then there is one more edge (`edgeCount_addEdge`). Neither touches the other count, so placeholders
count for nothing until they are placed.
-/

namespace RoadRouting.Network
set_option autoImplicit false

variable {α π : Type} {g g' : Network α π}

/-- How many nodes have positions. -/
def placedCount (g : Network α π) : Nat := g.nodes.toList.countP (·.position.isSome)

/-- Changing one item of a list changes how many of the items are of a kind by that item. -/
theorem countP_modify {β : Type} (p : β → Bool) (f : β → β) {items : List β} {i : Nat} {x : β}
    (hx : items[i]? = some x) : (items.modify i f).countP p + (if p x then 1 else 0) =
      items.countP p + if p (f x) then 1 else 0 := by
  have hcount (l : List β) : l.countP p = (l.flatMap fun y => if p y then [y] else []).length := by
    induction l with
    | nil => rfl
    | cons y rest ih =>
      rw [List.countP_cons, ih, List.flatMap_cons, List.length_append, Nat.add_comm]
      split <;> rfl
  have hone (y : β) : (if p y then [y] else []).length = if p y then 1 else 0 := by split <;> rfl
  rw [hcount, hcount, ← hone, ← hone]
  exact length_flatMap_modify f (fun y => if p y then [y] else []) hx

theorem getElem?_toList {v : NodeId} {n : Node α π} (hn : g.node? v = some n) :
    g.nodes.toList[v.index]? = some n := by
  rw [Array.getElem?_toList]
  exact hn

theorem placedCount_withNode (id : Int64) (p : Option π) :
    (g.withNode id p).placedCount = g.placedCount + if p.isSome then 1 else 0 := by
  simp [placedCount, withNode, List.countP_append]

/-- A node that is moved counts from then on, if it did not before. -/
theorem placedCount_moved {v : NodeId} (hv : v.index < g.nodeCount) (p : π) :
    (g.moved v p).placedCount = g.placedCount + if (g.position? v).isNone then 1 else 0 := by
  have hnodes : (g.moved v p).nodes.toList =
      g.nodes.toList.modify v.index fun n => { n with position := some p } := Array.toList_modify
  obtain ⟨n, hn⟩ := node?_of_lt hv
  have hposition : g.position? v = n.position := by simp [position?, hn]
  have hcount := countP_modify (fun n : Node α π => n.position.isSome)
    (fun n => { n with position := some p }) (getElem?_toList hn)
  unfold placedCount
  rw [hnodes, hposition]
  cases hp : n.position with
  | none => simpa [hp] using hcount
  | some q => simpa [hp] using hcount

theorem edgeCount_link (u : NodeId) (e : Edge α) :
    (g.link u e).2.edgeCount = g.edgeCount + if (g.link u e).1 then 1 else 0 := by
  unfold link
  simp only
  split <;> simp_all

variable [Quantity α]

theorem placedCount_withRoad (u : NodeId) (e : Edge α) :
    (g.withRoad u e).placedCount = g.placedCount := by
  have hnodes : (g.withRoad u e).nodes.toList =
      g.nodes.toList.modify u.index fun n => { n with out := putEdge e n.out } := by
    rw [nodes_withRoad]
    exact Array.toList_modify
  unfold placedCount
  rw [hnodes]
  cases hn : g.nodes.toList[u.index]? with
  | none => rw [List.modify_eq_self (List.getElem?_eq_none_iff.1 hn)]
  | some n =>
    have hcount := countP_modify (fun n : Node α π => n.position.isSome)
      (fun n => { n with out := putEdge e n.out }) hn
    dsimp only at hcount
    omega

/-- What gives no node a position leaves the count. -/
theorem placedCount_joins (h : Joins g g') : g'.placedCount = g.placedCount := by
  induction h with
  | refl => rfl
  | tail _ hj ih =>
    cases hj with
    | node id _ _ => rw [placedCount_withNode, ih]; rfl
    | name n _ _ => exact ih
    | road u e _ _ => rw [placedCount_withRoad, ih]

/-! ## Operations -/

omit [Quantity α] in
theorem placedCount_place (hg : g.WellFormed) {id : Int64} {p : π} {fresh : Bool}
    (h : g.place id p = (.ok fresh, g')) :
    g'.placedCount = g.placedCount + if fresh then 1 else 0 := by
  unfold place at h
  cases hl : g.lookup id with
  | some v =>
    simp only [hl, Prod.mk.injEq, Except.ok.injEq] at h
    obtain ⟨rfl, rfl⟩ := h
    exact placedCount_moved (hg.index_lt hl) p
  | none =>
    simp only [hl, push_eq] at h
    split at h
    · rename_i hpush
      split at hpush
      · cases hpush
        cases h
        exact placedCount_withNode id (some p)
      · cases hpush
    · cases h

omit [Quantity α] in
theorem edgeCount_place {id : Int64} {p : π} {fresh : Bool} (h : g.place id p = (.ok fresh, g')) :
    g'.edgeCount = g.edgeCount := by
  obtain ⟨_, _, he⟩ := g.place_frame id p
  rw [h] at he
  obtain rfl : g' = _ := he
  rfl

theorem placedCount_addEdge (hg : g.WellFormed) {source target : Int64} {length travel : α}
    {className : String} {fresh : Bool}
    (h : g.addEdge source target length travel className = (.ok fresh, g')) :
    g'.placedCount = g.placedCount := by
  have hj := addEdge_joins hg source target length travel className
  rw [h] at hj
  exact placedCount_joins hj

omit [Quantity α] in
theorem edgeCount_ensure {id : Int64} {v : NodeId} (h : g.ensure id = (.ok v, g')) :
    g'.edgeCount = g.edgeCount := by
  obtain ⟨_, _, he⟩ := g.ensure_frame id
  rw [h] at he
  obtain rfl : g' = _ := he
  rfl

omit [Quantity α] in
theorem edgeCount_intern {n : String} {c : ClassId} (h : g.intern n = (.ok c, g')) :
    g'.edgeCount = g.edgeCount := by
  obtain ⟨_, _, he⟩ := g.intern_frame n
  rw [h] at he
  obtain rfl : g' = _ := he
  rfl

theorem edgeCount_noteSpeed (g : Network α π) (length travel : α) :
    (g.noteSpeed length travel).edgeCount = g.edgeCount := by
  unfold noteSpeed
  simp only
  split_ifs <;> rfl

theorem edgeCount_addEdge {source target : Int64} {length travel : α} {className : String} {fresh : Bool}
    (h : g.addEdge source target length travel className = (.ok fresh, g')) :
    g'.edgeCount = g.edgeCount + if fresh then 1 else 0 := by
  unfold addEdge at h
  rcases h1 : g.ensure source with ⟨_ | u, g₁⟩
  · simp [h1] at h
  rcases h2 : g₁.ensure target with ⟨_ | v, g₂⟩
  · simp [h1, h2] at h
  rcases h3 : g₂.intern className with ⟨_ | c, g₃⟩
  · simp [h1, h2, h3] at h
  · simp only [h1, h2, h3, Prod.mk.injEq, Except.ok.injEq] at h
    obtain ⟨rfl, rfl⟩ := h
    rw [edgeCount_link, edgeCount_noteSpeed, edgeCount_intern h3, edgeCount_ensure h2, edgeCount_ensure h1]

end RoadRouting.Network
