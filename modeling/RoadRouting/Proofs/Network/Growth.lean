import Mathlib.Data.List.Nodup
import Mathlib.Logic.Relation
import RoadRouting.Network.Basic

/-!
# How networks grow

Whatever is done to a network comes down to four updates: a node is added, a node gets a position, a
class gets a name, an edge is put (`Update`). To add an edge takes only those that give no node a
position (`Join`). `WellFormed` is what every network grown from the empty
one satisfies: identifiers and numbers match, edges lead to nodes, and no two edges of a node lead to
the same one. What holds of the empty network and is kept by each update holds of all that are grown
(`Grown.induct`).
-/

namespace RoadRouting.Network
set_option autoImplicit false

variable {α π : Type}

theorem NodeId.eq_iff {u v : NodeId} : u = v ↔ u.index = v.index := by
  cases u; cases v; simp

/-- The network with one more node. -/
def withNode (g : Network α π) (id : Int64) (p : Option π) : Network α π :=
  { g with
    nodes := g.nodes.push { id, position := p, out := [] }
    numbers := g.numbers.insert id ⟨g.nodeCount⟩ }

/-- The network with a position given to one of its nodes. -/
def moved (g : Network α π) (v : NodeId) (p : π) : Network α π :=
  { g with nodes := withPosition g.nodes v p }

/-- The network with one more class. -/
def withClass (g : Network α π) (name : String) : Network α π :=
  { g with
    classes := g.classes.push name
    classNumbers := g.classNumbers.insert name ⟨g.classes.size⟩ }

/-- The network with an edge put at a node. -/
def withRoad [Quantity α] (g : Network α π) (u : NodeId) (e : Edge α) : Network α π :=
  ((g.noteSpeed e.length e.travel).link u e).2

/-- The ways in which a network changes. -/
inductive Update [Quantity α] (g : Network α π) : Network α π → Prop
  | node (id : Int64) (p : Option π) : g.lookup id = none → g.nodeCount < NodeId.invalid.index →
      Update g (g.withNode id p)
  | position (v : NodeId) (p : π) : Update g (g.moved v p)
  | name (n : String) : g.classNumbers[n]? = none → g.classes.size < ClassId.invalid.index →
      Update g (g.withClass n)
  | road (u : NodeId) (e : Edge α) : u.index < g.nodeCount → e.target.index < g.nodeCount →
      Update g (g.withRoad u e)

/-- The changes that give no node a position. -/
inductive Join [Quantity α] (g : Network α π) : Network α π → Prop
  | node (id : Int64) : g.lookup id = none → g.nodeCount < NodeId.invalid.index →
      Join g (g.withNode id none)
  | name (n : String) : g.classNumbers[n]? = none → g.classes.size < ClassId.invalid.index →
      Join g (g.withClass n)
  | road (u : NodeId) (e : Edge α) : u.index < g.nodeCount → e.target.index < g.nodeCount →
      Join g (g.withRoad u e)

/-- Any number of updates. -/
abbrev Updates [Quantity α] : Network α π → Network α π → Prop := Relation.ReflTransGen Update

/-- Any number of changes that give no node a position. -/
abbrev Joins [Quantity α] : Network α π → Network α π → Prop := Relation.ReflTransGen Join

theorem Join.update [Quantity α] {g g' : Network α π} (h : Join g g') : Update g g' := by
  cases h with
  | node id hl hn => exact .node id none hl hn
  | name n hc hn => exact .name n hc hn
  | road u e hu he => exact .road u e hu he

theorem updates_of_joins [Quantity α] {g g' : Network α π} (h : Joins g g') : Updates g g' :=
  Relation.ReflTransGen.mono (fun _ _ => Join.update) _ _ h

/-- The networks that come from the empty one by the operations, whatever these answer. -/
inductive Grown [Quantity α] : Network α π → Prop
  | empty : Grown Network.empty
  | place {g : Network α π} (id : Int64) (p : π) : Grown g → Grown (g.place id p).2
  | ensure {g : Network α π} (id : Int64) : Grown g → Grown (g.ensure id).2
  | addEdge {g : Network α π} (source target : Int64) (length travel : α) (className : String) :
      Grown g → Grown (g.addEdge source target length travel className).2

/-- Identifiers and numbers match, and edges lead to nodes, at most one from each node to each. -/
structure WellFormed (g : Network α π) : Prop where
  lookup_iff : ∀ id v, g.lookup id = some v ↔ g.id? v = some id
  targets : ∀ v, ∀ e ∈ g.out v, e.target.index < g.nodeCount
  distinct : ∀ v, ((g.out v).map (·.target)).Nodup

/-! ## What each update does -/

section Views
variable {g : Network α π} {id : Int64} {v w : NodeId}

theorem node?_eq_none_iff : g.node? v = none ↔ g.nodeCount ≤ v.index := by
  simp [node?, nodeCount]

theorem id?_isSome_iff : (g.id? v).isSome ↔ v.index < g.nodeCount := by
  simp [id?, node?, nodeCount]

/-- A node that an edge leaves is there. -/
theorem index_lt_of_mem_out {e : Edge α} (he : e ∈ g.out v) : v.index < g.nodeCount := by
  by_contra hv
  rw [out, node?_eq_none_iff.2 (Nat.le_of_not_lt hv)] at he
  cases he

@[simp] theorem nodeCount_withNode (p : Option π) : (g.withNode id p).nodeCount = g.nodeCount + 1 := by
  simp [withNode, nodeCount]

theorem node?_withNode (p : Option π) : (g.withNode id p).node? v =
    if v = ⟨g.nodeCount⟩ then some { id, position := p, out := [] } else g.node? v := by
  simp only [withNode, node?, Array.getElem?_push, NodeId.eq_iff, nodeCount]

theorem lookup_withNode (p : Option π) (i : Int64) :
    (g.withNode id p).lookup i = if id = i then some ⟨g.nodeCount⟩ else g.lookup i := by
  simp [withNode, lookup, Std.HashMap.getElem?_insert]

@[simp] theorem out_withNode (p : Option π) : (g.withNode id p).out v = g.out v := by
  simp only [out, node?_withNode]
  split
  · rename_i hv
    have : g.node? v = none := node?_eq_none_iff.2 (by simp [hv])
    simp [this]
  · rfl

@[simp] theorem nodeCount_moved (p : π) : (g.moved v p).nodeCount = g.nodeCount := by
  simp [moved, nodeCount, withPosition]

@[simp] theorem lookup_moved (p : π) (i : Int64) : (g.moved v p).lookup i = g.lookup i := rfl

theorem node?_moved (p : π) : (g.moved v p).node? w =
    (g.node? w).map fun n => if w = v then { n with position := some p } else n := by
  simp only [moved, node?, withPosition, Array.getElem?_modify, NodeId.eq_iff, eq_comm (a := v.index)]
  split
  · rfl
  · simp

@[simp] theorem id?_moved (p : π) : (g.moved v p).id? w = g.id? w := by
  rw [id?, node?_moved, Option.map_map, id?]
  congr 1
  funext n
  simp only [Function.comp]
  split <;> rfl

@[simp] theorem out_moved (p : π) : (g.moved v p).out w = g.out w := by
  rw [out, node?_moved, Option.map_map, out]
  congr 2
  funext n
  simp only [Function.comp]
  split <;> rfl

@[simp] theorem lookup_withClass (n : String) (i : Int64) :
    (g.withClass n).lookup i = g.lookup i := rfl

section Road
variable [Quantity α] {u : NodeId} {e : Edge α}

theorem nodes_noteSpeed (length travel : α) : (g.noteSpeed length travel).nodes = g.nodes := by
  unfold noteSpeed
  split
  · simp only
    split <;> rfl
  · rfl

theorem numbers_noteSpeed (length travel : α) : (g.noteSpeed length travel).numbers = g.numbers := by
  unfold noteSpeed
  split
  · simp only
    split <;> rfl
  · rfl

omit [Quantity α] in
theorem nodes_link : (g.link u e).2.nodes = withEdge g.nodes u e := by
  unfold link
  simp only
  split <;> rfl

theorem nodes_withRoad : (g.withRoad u e).nodes = withEdge g.nodes u e := by
  rw [withRoad, nodes_link, nodes_noteSpeed]

@[simp] theorem nodeCount_withRoad : (g.withRoad u e).nodeCount = g.nodeCount := by
  simp [nodeCount, nodes_withRoad, withEdge]

@[simp] theorem lookup_withRoad (i : Int64) : (g.withRoad u e).lookup i = g.lookup i := by
  unfold withRoad link
  simp only [lookup]
  split <;> rw [numbers_noteSpeed]

theorem node?_withRoad : (g.withRoad u e).node? w =
    (g.node? w).map fun n => if w = u then { n with out := putEdge e n.out } else n := by
  simp only [node?, nodes_withRoad, withEdge, Array.getElem?_modify, NodeId.eq_iff,
    eq_comm (a := u.index)]
  split
  · rfl
  · simp

@[simp] theorem id?_withRoad : (g.withRoad u e).id? w = g.id? w := by
  rw [id?, node?_withRoad, Option.map_map, id?]
  congr 1
  funext n
  simp only [Function.comp]
  split <;> rfl

theorem out_withRoad (hu : u.index < g.nodeCount) :
    (g.withRoad u e).out w = if w = u then putEdge e (g.out u) else g.out w := by
  simp only [out, node?_withRoad]
  by_cases hw : w = u
  · subst hw
    cases hn : g.node? w with
    | none => exact absurd hu (Nat.not_lt.2 (node?_eq_none_iff.1 hn))
    | some n => simp
  · simp [hw]

theorem fastest_withRoad : (g.withRoad u e).fastest = (g.noteSpeed e.length e.travel).fastest := by
  unfold withRoad link
  simp only
  split <;> rfl

end Road
end Views

/-! ## Well-formed networks -/

theorem mem_putEdge {e f : Edge α} {es : List (Edge α)} (h : f ∈ putEdge e es) : f = e ∨ f ∈ es := by
  induction es with
  | nil => simpa [putEdge] using h
  | cons x rest ih =>
    unfold putEdge at h
    split at h
    · rcases List.mem_cons.1 h with rfl | h
      · exact .inl rfl
      · exact .inr (List.mem_cons_of_mem _ h)
    · rcases List.mem_cons.1 h with rfl | h
      · exact .inr List.mem_cons_self
      · exact (ih h).imp_right (List.mem_cons_of_mem _)

/-- The targets stay, and that of the new edge is one of them. -/
theorem targets_putEdge (e : Edge α) (es : List (Edge α)) : (putEdge e es).map (·.target) =
    if e.target ∈ es.map (·.target) then es.map (·.target) else es.map (·.target) ++ [e.target] := by
  induction es with
  | nil => simp [putEdge]
  | cons x rest ih =>
    unfold putEdge
    by_cases hx : x.target = e.target
    · simp [hx]
    · simp only [hx, if_false, List.map_cons, ih, List.mem_cons, Ne.symm hx, false_or]
      split <;> rfl

theorem nodup_targets_putEdge {e : Edge α} {es : List (Edge α)} (h : (es.map (·.target)).Nodup) :
    ((putEdge e es).map (·.target)).Nodup := by
  rw [targets_putEdge]
  split
  · exact h
  · rename_i hn
    exact List.nodup_append.2 ⟨h, List.nodup_singleton _, fun a ha b hb => by
      rw [List.mem_singleton.1 hb]
      exact fun hab => hn (hab ▸ ha)⟩

namespace WellFormed
variable {g : Network α π}

theorem empty [Cost α] : (Network.empty : Network α π).WellFormed where
  lookup_iff id v := by simp [lookup, Network.empty, id?, node?]
  targets v e he := by simp [out, node?, Network.empty] at he
  distinct v := by simp [out, node?, Network.empty]

theorem index_lt (h : g.WellFormed) {id : Int64} {v : NodeId} (hv : g.lookup id = some v) :
    v.index < g.nodeCount := by
  rw [← id?_isSome_iff, (h.lookup_iff id v).1 hv]
  rfl

/-- Each node has an identifier. -/
theorem exists_lookup (h : g.WellFormed) {v : NodeId} (hv : v.index < g.nodeCount) :
    ∃ id, g.lookup id = some v := by
  obtain ⟨id, hid⟩ := Option.isSome_iff_exists.1 (id?_isSome_iff.2 hv)
  exact ⟨id, (h.lookup_iff id v).2 hid⟩

/-- A node has one identifier only. -/
theorem id_unique (h : g.WellFormed) {a b : Int64} {v : NodeId} (ha : g.lookup a = some v)
    (hb : g.lookup b = some v) : a = b := by
  rw [h.lookup_iff] at ha hb
  exact Option.some.inj (ha.symm.trans hb)

/-- Only what a network says of its identifiers and edges matters. -/
theorem of_views {g' : Network α π} (h : g.WellFormed) (hl : ∀ i, g'.lookup i = g.lookup i)
    (hi : ∀ v, g'.id? v = g.id? v) (hc : g'.nodeCount = g.nodeCount)
    (ho : ∀ v, (∀ e ∈ g'.out v, e.target.index < g.nodeCount) ∧ ((g'.out v).map (·.target)).Nodup) :
    g'.WellFormed where
  lookup_iff id v := by rw [hl, hi]; exact h.lookup_iff id v
  targets v e he := by rw [hc]; exact (ho v).1 e he
  distinct v := (ho v).2

theorem withNode (h : g.WellFormed) {id : Int64} (hid : g.lookup id = none) (p : Option π) :
    (g.withNode id p).WellFormed := by
  refine ⟨?_, ?_, ?_⟩
  · intro i v
    simp only [lookup_withNode, id?, node?_withNode]
    by_cases hv : v = ⟨g.nodeCount⟩
    · -- The new number belongs to the new identifier alone.
      subst hv
      by_cases hi : id = i
      · simp [hi]
      · simp only [if_true, Option.map_some, Option.some.injEq, hi, iff_false, if_false]
        exact fun hl => Nat.lt_irrefl _ (h.index_lt hl)
    · rw [if_neg hv]
      by_cases hi : id = i
      · subst hi
        rw [if_pos rfl, Option.some.injEq]
        constructor
        · exact fun e => absurd e.symm hv
        · intro hg
          rw [(h.lookup_iff id v).2 hg] at hid
          cases hid
      · rw [if_neg hi]
        exact h.lookup_iff i v
  · intro v e he
    rw [out_withNode] at he
    have := h.targets v e he
    rw [nodeCount_withNode]
    omega
  · intro v
    rw [out_withNode]
    exact h.distinct v

theorem update [Quantity α] {g' : Network α π} (h : g.WellFormed) (hu : Update g g') :
    g'.WellFormed := by
  cases hu with
  | node id p hid _ => exact h.withNode hid p
  | position v p =>
    refine h.of_views (lookup_moved p) (fun w => id?_moved p) (nodeCount_moved p) ?_
    intro w
    rw [out_moved]
    exact ⟨h.targets w, h.distinct w⟩
  | name n _ _ =>
    exact h.of_views (lookup_withClass n) (fun _ => rfl) rfl fun w => ⟨h.targets w, h.distinct w⟩
  | road u e hu he =>
    refine h.of_views lookup_withRoad (fun w => id?_withRoad) nodeCount_withRoad ?_
    intro w
    rw [out_withRoad hu]
    split
    · refine ⟨?_, nodup_targets_putEdge (h.distinct u)⟩
      intro f hf
      rcases mem_putEdge hf with rfl | hf
      · exact he
      · exact h.targets u f hf
    · exact ⟨h.targets w, h.distinct w⟩

theorem updates [Quantity α] {g' : Network α π} (h : g.WellFormed) (hu : Updates g g') :
    g'.WellFormed := by
  induction hu with
  | refl => exact h
  | tail _ hu ih => exact ih.update hu

end WellFormed

/-- An edge of the network after an update was there before, or it is the one that was put. -/
theorem Update.mem_out [Quantity α] {g g' : Network α π} (hu : Update g g') {v : NodeId} {f : Edge α}
    (hf : f ∈ g'.out v) : f ∈ g.out v ∨ ∃ u, g' = g.withRoad u f := by
  cases hu with
  | node id p _ _ => exact .inl (out_withNode (g := g) p ▸ hf)
  | position w p => exact .inl (out_moved (g := g) p ▸ hf)
  | name n _ _ => exact .inl hf
  | road u e hu _ =>
    rw [out_withRoad hu] at hf
    split at hf
    · rename_i hvu
      rcases mem_putEdge hf with rfl | hf
      · exact .inr ⟨u, rfl⟩
      · exact .inl (hvu ▸ hf)
    · exact .inl hf

/-! ## The operations as updates -/

section Operations
variable {g : Network α π}

theorem push_eq (id : Int64) (p : Option π) : g.push id p =
    if g.nodeCount < NodeId.invalid.index then (.ok ⟨g.nodeCount⟩, g.withNode id p)
    else (.error .nodes, g) := rfl

theorem place_ok {id : Int64} {p : π} {fresh : Bool} (h : (g.place id p).1 = .ok fresh) :
    (∃ v, g.lookup id = some v ∧ (g.place id p).2 = g.moved v p) ∨
      (g.lookup id = none ∧ g.nodeCount < NodeId.invalid.index ∧
        (g.place id p).2 = g.withNode id (some p)) := by
  unfold place at h ⊢
  cases hl : g.lookup id with
  | some v => exact .inl ⟨v, rfl, rfl⟩
  | none =>
    simp only [hl, push_eq] at h ⊢
    by_cases hn : g.nodeCount < NodeId.invalid.index
    · simp only [if_pos hn]
      exact .inr ⟨trivial, hn, trivial⟩
    · simp [hn] at h

theorem place_error {id : Int64} {p : π} {e : Full} (h : (g.place id p).1 = .error e) :
    (g.place id p).2 = g := by
  unfold place at h ⊢
  cases hl : g.lookup id with
  | some v => simp [hl] at h
  | none =>
    simp only [hl, push_eq] at h ⊢
    by_cases hn : g.nodeCount < NodeId.invalid.index
    · simp [hn] at h
    · simp only [if_neg hn]

theorem ensure_cases (id : Int64) :
    (∃ v, g.lookup id = some v ∧ g.ensure id = (.ok v, g)) ∨
      (g.lookup id = none ∧ g.nodeCount < NodeId.invalid.index ∧
        g.ensure id = (.ok ⟨g.nodeCount⟩, g.withNode id none)) ∨
      g.ensure id = (.error .nodes, g) := by
  unfold ensure
  cases hl : g.lookup id with
  | some v => exact .inl ⟨v, rfl, rfl⟩
  | none =>
    simp only [push_eq]
    split
    · rename_i hn
      exact .inr (.inl ⟨trivial, hn, rfl⟩)
    · exact .inr (.inr rfl)

/-- Placing a node, or making sure of one, touches nothing but the nodes. -/
theorem place_frame (g : Network α π) (id : Int64) (p : π) :
    ∃ nodes numbers, (g.place id p).2 = { g with nodes, numbers } := by
  cases h : (g.place id p).1 with
  | error e => exact ⟨g.nodes, g.numbers, place_error h⟩
  | ok fresh =>
    rcases place_ok h with ⟨v, -, he⟩ | ⟨-, -, he⟩
    · exact ⟨_, _, he⟩
    · exact ⟨_, _, he⟩

theorem ensure_frame (g : Network α π) (id : Int64) :
    ∃ nodes numbers, (g.ensure id).2 = { g with nodes, numbers } := by
  rcases g.ensure_cases id with ⟨v, -, he⟩ | ⟨-, -, he⟩ | he
  · exact ⟨_, _, congrArg Prod.snd he⟩
  · exact ⟨_, _, congrArg Prod.snd he⟩
  · exact ⟨_, _, congrArg Prod.snd he⟩

/-- Naming a class touches nothing but the classes. -/
theorem intern_frame (g : Network α π) (name : String) :
    ∃ classes classNumbers, (g.intern name).2 = { g with classes, classNumbers } := by
  unfold intern
  cases g.classNumbers[name]? with
  | some c => exact ⟨_, _, rfl⟩
  | none =>
    simp only
    split
    · exact ⟨_, _, rfl⟩
    · exact ⟨_, _, rfl⟩

variable [Quantity α]

theorem place_updates (g : Network α π) (id : Int64) (p : π) : Updates g (g.place id p).2 := by
  cases h : (g.place id p).1 with
  | error e => rw [place_error h]
  | ok fresh =>
    rcases place_ok h with ⟨v, -, he⟩ | ⟨hid, hn, he⟩
    · rw [he]
      exact .single (.position v p)
    · rw [he]
      exact .single (.node id _ hid hn)

theorem ensure_joins (g : Network α π) (id : Int64) : Joins g (g.ensure id).2 := by
  rcases g.ensure_cases id with ⟨v, -, he⟩ | ⟨hid, hn, he⟩ | he
  · rw [he]
  · rw [he]
    exact .single (.node id hid hn)
  · rw [he]

omit [Quantity α] in
theorem lookup_ensure {id : Int64} {v : NodeId} (h : (g.ensure id).1 = .ok v) :
    (g.ensure id).2.lookup id = some v := by
  rcases g.ensure_cases id with ⟨w, hl, he⟩ | ⟨-, -, he⟩ | he
  · rw [he] at h ⊢
    cases h
    exact hl
  · rw [he] at h ⊢
    cases h
    simp [lookup_withNode]
  · rw [he] at h
    cases h

theorem intern_joins (g : Network α π) (name : String) : Joins g (g.intern name).2 := by
  unfold intern
  cases hl : g.classNumbers[name]? with
  | some c => exact .refl
  | none =>
    simp only
    split
    · rename_i hc
      exact .single (.name name hl hc)
    · exact .refl

/-- A number once given stays. -/
theorem Update.lookup {g' : Network α π} (hu : Update g g') {id : Int64} {v : NodeId}
    (h : g.lookup id = some v) : g'.lookup id = some v := by
  cases hu with
  | node i p hi _ =>
    rw [lookup_withNode, if_neg, h]
    rintro rfl
    rw [h] at hi
    cases hi
  | position w p => exact h
  | name n _ _ => exact h
  | road u e _ _ => rwa [lookup_withRoad]

theorem lookup_updates {g' : Network α π} (hu : Updates g g') {id : Int64} {v : NodeId}
    (h : g.lookup id = some v) : g'.lookup id = some v := by
  induction hu with
  | refl => exact h
  | tail _ hu ih => exact hu.lookup ih

/-- Adding an edge makes room for its ends and its class, and then puts it. -/
theorem addEdge_joins (hg : g.WellFormed) (source target : Int64) (length travel : α)
    (className : String) : Joins g (g.addEdge source target length travel className).2 := by
  unfold addEdge
  rcases he1 : g.ensure source with ⟨r1, g1⟩
  have h1 : Joins g g1 := by simpa [he1] using g.ensure_joins source
  cases r1 with
  | error e => exact h1
  | ok u =>
    have hu : (g.ensure source).2.lookup source = some u := lookup_ensure (by rw [he1])
    rw [he1] at hu
    simp only
    rcases he2 : g1.ensure target with ⟨r2, g2⟩
    have h2 : Joins g1 g2 := by simpa [he2] using g1.ensure_joins target
    cases r2 with
    | error e => exact h1.trans h2
    | ok v =>
      have hv : (g1.ensure target).2.lookup target = some v := lookup_ensure (by rw [he2])
      rw [he2] at hv
      simp only
      rcases he3 : g2.intern className with ⟨r3, g3⟩
      have h3 : Joins g2 g3 := by simpa [he3] using g2.intern_joins className
      have h : Joins g g3 := h1.trans (h2.trans h3)
      cases r3 with
      | error e => exact h
      | ok c =>
        have hw := hg.updates (updates_of_joins h)
        have hu3 := lookup_updates (updates_of_joins (h2.trans h3)) hu
        have hv3 := lookup_updates (updates_of_joins h3) hv
        exact h.tail (.road u ⟨v, length, travel, c⟩ (hw.index_lt hu3) (hw.index_lt hv3))

end Operations

/-! ## The edges of a node -/

theorem out_place (g : Network α π) (id : Int64) (p : π) (v : NodeId) :
    (g.place id p).2.out v = g.out v := by
  cases h : (g.place id p).1 with
  | error e => rw [place_error h]
  | ok fresh =>
    rcases place_ok h with ⟨w, -, he⟩ | ⟨-, -, he⟩
    · rw [he, out_moved]
    · rw [he, out_withNode]

theorem out_ensure (g : Network α π) (id : Int64) (v : NodeId) : (g.ensure id).2.out v = g.out v := by
  rcases g.ensure_cases id with ⟨w, -, he⟩ | ⟨-, -, he⟩ | he
  · rw [he]
  · rw [he, out_withNode]
  · rw [he]

theorem out_intern (g : Network α π) (name : String) (v : NodeId) :
    (g.intern name).2.out v = g.out v := by
  obtain ⟨classes, numbers, h⟩ := g.intern_frame name
  rw [h]
  rfl

theorem mem_out_withRoad [Quantity α] {g : Network α π} {u v : NodeId} {e f : Edge α}
    (h : f ∈ (g.withRoad u e).out v) : f = e ∨ f ∈ g.out v := by
  rw [out, node?_withRoad] at h
  unfold out
  cases hn : g.node? v with
  | none => simp [hn] at h
  | some n =>
    simp only [hn, Option.map_some, Option.getD_some] at h ⊢
    split at h
    · exact mem_putEdge h
    · exact .inr h

/-- Whether there is room or not, an edge was there before or has the length and the time of the one
that was to be added. -/
theorem mem_out_addEdge [Quantity α] {g : Network α π} {source target : Int64} {length travel : α}
    {className : String} {v : NodeId} {f : Edge α}
    (h : f ∈ (g.addEdge source target length travel className).2.out v) :
    (f.length = length ∧ f.travel = travel) ∨ f ∈ g.out v := by
  unfold addEdge at h
  have h1 := g.out_ensure source v
  rcases he1 : g.ensure source with ⟨_ | u, g1⟩
  · rw [he1] at h h1
    exact .inr (h1 ▸ h)
  rw [he1] at h1
  simp only [he1] at h
  have h2 := g1.out_ensure target v
  rcases he2 : g1.ensure target with ⟨_ | w, g2⟩
  · rw [he2] at h2
    simp only [he2] at h
    exact .inr (h1 ▸ h2 ▸ h)
  rw [he2] at h2
  simp only [he2] at h
  have h3 := g2.out_intern className v
  rcases he3 : g2.intern className with ⟨_ | c, g3⟩
  · rw [he3] at h3
    simp only [he3] at h
    exact .inr (h1 ▸ h2 ▸ h3 ▸ h)
  rw [he3] at h3
  simp only [he3] at h
  rcases mem_out_withRoad (e := ⟨w, length, travel, c⟩) h with rfl | h
  · exact .inl ⟨rfl, rfl⟩
  · exact .inr (h1 ▸ h2 ▸ h3 ▸ h)

/-! ## Positions -/

/-- The position of the node with an identifier, if it is known. -/
def positionOf (g : Network α π) (id : Int64) : Option π := (g.lookup id).bind g.position?

section Positions
variable {g : Network α π}

theorem position?_withNode (id : Int64) (p : Option π) (v : NodeId) :
    (g.withNode id p).position? v = if v = ⟨g.nodeCount⟩ then p else g.position? v := by
  unfold position?
  rw [node?_withNode]
  split <;> rfl

theorem position?_moved {v : NodeId} (hv : v.index < g.nodeCount) (p : π) (w : NodeId) :
    (g.moved v p).position? w = if w = v then some p else g.position? w := by
  unfold position?
  rw [node?_moved]
  cases hw : g.node? w with
  | none =>
    have hne : w ≠ v := by
      rintro rfl
      exact absurd (node?_eq_none_iff.1 hw) (Nat.not_le.2 hv)
    simp [hne]
  | some n =>
    simp only [Option.map_some, Option.bind_some]
    split <;> rfl

theorem position?_withRoad [Quantity α] (u : NodeId) (e : Edge α) (w : NodeId) :
    (g.withRoad u e).position? w = g.position? w := by
  unfold position?
  rw [node?_withRoad]
  cases g.node? w with
  | none => rfl
  | some n =>
    simp only [Option.map_some, Option.bind_some]
    split <;> rfl

theorem WellFormed.positionOf_withNode (hg : g.WellFormed) (id : Int64) (p : Option π) (i : Int64) :
    (g.withNode id p).positionOf i = if i = id then p else g.positionOf i := by
  unfold positionOf
  rw [lookup_withNode]
  by_cases hi : id = i
  · rw [if_pos hi, if_pos hi.symm, Option.bind_some, position?_withNode, if_pos rfl]
  · rw [if_neg hi, if_neg (Ne.symm hi)]
    cases hl : g.lookup i with
    | none => rfl
    | some v =>
      have hv : v ≠ ⟨g.nodeCount⟩ := by
        rintro rfl
        exact Nat.lt_irrefl _ (hg.index_lt hl)
      rw [Option.bind_some, Option.bind_some, position?_withNode, if_neg hv]

theorem WellFormed.positionOf_moved (hg : g.WellFormed) {id : Int64} {v : NodeId}
    (hv : g.lookup id = some v) (p : π) (i : Int64) :
    (g.moved v p).positionOf i = if i = id then some p else g.positionOf i := by
  unfold positionOf
  rw [lookup_moved]
  by_cases hi : i = id
  · rw [if_pos hi, hi, hv, Option.bind_some, position?_moved (hg.index_lt hv), if_pos rfl]
  · rw [if_neg hi]
    cases hl : g.lookup i with
    | none => rfl
    | some w =>
      have hwv : w ≠ v := by
        rintro rfl
        have h1 := (hg.lookup_iff i w).1 hl
        rw [(hg.lookup_iff id w).1 hv] at h1
        exact hi (Option.some.inj h1).symm
      rw [Option.bind_some, Option.bind_some, position?_moved (hg.index_lt hv), if_neg hwv]

/-- Placing a node gives it a position, and no other one. -/
theorem WellFormed.positionOf_place (hg : g.WellFormed) {id : Int64} {p : π} {fresh : Bool}
    (h : (g.place id p).1 = .ok fresh) (i : Int64) :
    (g.place id p).2.positionOf i = if i = id then some p else g.positionOf i := by
  rcases place_ok h with ⟨v, hv, he⟩ | ⟨hid, -, he⟩
  · rw [he]
    exact hg.positionOf_moved hv p i
  · rw [he]
    exact hg.positionOf_withNode id (some p) i

variable [Quantity α]

theorem Join.positionOf (hg : g.WellFormed) {g' : Network α π} (h : Join g g') (i : Int64) :
    g'.positionOf i = g.positionOf i := by
  cases h with
  | node id hid _ =>
    rw [hg.positionOf_withNode]
    split
    · rename_i hi
      rw [Network.positionOf, hi, hid]
      rfl
    · rfl
  | name n _ _ => rfl
  | road u e _ _ =>
    unfold Network.positionOf
    rw [lookup_withRoad]
    exact Option.bind_congr fun v _ => position?_withRoad u e v

theorem positionOf_joins (hg : g.WellFormed) {g' : Network α π} (h : Joins g g') (i : Int64) :
    g'.positionOf i = g.positionOf i := by
  induction h with
  | refl => rfl
  | tail hs hj ih => exact (hj.positionOf (hg.updates (updates_of_joins hs)) i).trans ih

end Positions

namespace Grown
variable [Quantity α] {g : Network α π}

theorem wellFormed_updates (h : Grown g) : g.WellFormed ∧ Updates Network.empty g := by
  induction h with
  | empty => exact ⟨.empty, .refl⟩
  | @place g id p _ ih =>
    have hu := g.place_updates id p
    exact ⟨ih.1.updates hu, ih.2.trans hu⟩
  | @ensure g id _ ih =>
    have hu := updates_of_joins (g.ensure_joins id)
    exact ⟨ih.1.updates hu, ih.2.trans hu⟩
  | @addEdge g source target length travel className _ ih =>
    have hu := updates_of_joins (addEdge_joins ih.1 source target length travel className)
    exact ⟨ih.1.updates hu, ih.2.trans hu⟩

theorem wellFormed (h : Grown g) : g.WellFormed := h.wellFormed_updates.1

theorem updates (h : Grown g) : Updates Network.empty g := h.wellFormed_updates.2

theorem induct {P : Network α π → Prop} (h0 : P Network.empty)
    (hs : ∀ g g', Update g g' → P g → P g') (h : Grown g) : P g := by
  have hu := h.updates
  clear h
  induction hu with
  | refl => exact h0
  | tail _ hu ih => exact hs _ _ hu ih

end Grown

/-! ## A network of one road -/

section OneRoad
variable [Quantity α] (position : π) (length travel : α)

/-- A road to a node that has a position, from a node that has none. -/
def oneRoad : Network α π :=
  ((Network.empty.place 2 position).2.addEdge 1 2 length travel "road").2

/-- There is room for the node and for the road. -/
theorem oneRoad_steps : ∃ fresh fresh' g, Network.empty.place 2 position = (.ok fresh, g) ∧
    g.addEdge 1 2 length travel "road" = (.ok fresh', oneRoad position length travel) := by
  have hplace : (Network.empty.place 2 position : Except Full Bool × Network α π).1 = .ok true := by
    simp [place, Network.empty, lookup, push, NodeId.invalid]
  have hedge : ∃ fresh, ((Network.empty.place 2 position).2.addEdge 1 2 length travel "road").1 =
      .ok fresh := by
    simp [place, addEdge, ensure, lookup, push, intern, Network.empty, NodeId.invalid, ClassId.invalid]
  obtain ⟨fresh, hedge⟩ := hedge
  exact ⟨true, fresh, _, Prod.ext hplace rfl, Prod.ext hedge rfl⟩

theorem oneRoad_grown : (oneRoad position length travel).Grown :=
  .addEdge 1 2 length travel "road" (.place 2 position .empty)

theorem nodes_oneRoad : (oneRoad position length travel).nodes =
    #[⟨2, some position, []⟩, ⟨1, none, [⟨⟨0⟩, length, travel, ⟨0⟩⟩]⟩] := by
  simp [oneRoad, place, addEdge, ensure, lookup, push, intern, Network.empty, nodes_link, withEdge,
    nodes_noteSpeed, NodeId.invalid, ClassId.invalid, Std.HashMap.getElem_insert]
  rfl

theorem nodeCount_oneRoad : (oneRoad position length travel).nodeCount = 2 := by
  rw [nodeCount, nodes_oneRoad]
  rfl

theorem mem_out_oneRoad {v : NodeId} {e : Edge α} (h : e ∈ (oneRoad position length travel).out v) :
    v = ⟨1⟩ ∧ e = ⟨⟨0⟩, length, travel, ⟨0⟩⟩ := by
  rcases v with ⟨_ | _ | n⟩
  · simp [out, node?, nodes_oneRoad] at h
  · exact ⟨rfl, by simpa [out, node?, nodes_oneRoad] using h⟩
  · simp [out, node?, nodes_oneRoad] at h

end OneRoad
end RoadRouting.Network
