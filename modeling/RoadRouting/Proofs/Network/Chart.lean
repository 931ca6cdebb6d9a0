import Mathlib.Data.Set.Insert
import Mathlib.Logic.Function.Basic
import RoadRouting.Proofs.Network.Walk

/-!
# What a network says by identifiers

The chart of a network forgets the numbers of its nodes and classes: it has the identifiers that are
known, the names of classes, a position for an identifier, and a link for two of them. To place a
node and to add an edge is to write into these plain maps (`WellFormed.chart_place`,
`WellFormed.chart_addEdge`). The class of an edge keeps its name because the names of classes and
their numbers match (`Classified`).
-/

namespace RoadRouting.Network
set_option autoImplicit false

variable {α π : Type}

/-- What a network says of an edge: its length, its seconds and the name of its class. -/
structure Link (α : Type) where
  length : α
  travel : α
  className : String

/-- The edge from the node with one identifier to the node with another. -/
def linkOf (g : Network α π) (a b : Int64) : Option (Link α) :=
  (g.lookup a).bind fun u => (g.lookup b).bind fun v =>
    (g.edge? u v).map fun e => ⟨e.length, e.travel, g.className e.className⟩

/-- What is known by identifiers. -/
structure Chart (α π : Type) where
  known : Set Int64
  named : Set String
  position : Int64 → Option π
  link : Int64 × Int64 → Option (Link α)

/-- The chart of a network. -/
def chart (g : Network α π) : Chart α π where
  known := {id | (g.lookup id).isSome}
  named := {name | g.classNumbers[name]?.isSome}
  position := g.positionOf
  link p := g.linkOf p.1 p.2

namespace Chart

/-- Nothing is known. -/
def empty : Chart α π := ⟨∅, ∅, fun _ => none, fun _ => none⟩

/-- One more identifier is known. -/
def know (c : Chart α π) (id : Int64) : Chart α π := { c with known := insert id c.known }

/-- One more class has a name. -/
def name (c : Chart α π) (n : String) : Chart α π := { c with named := insert n c.named }

/-- An identifier is known, and has a position. -/
def place (c : Chart α π) (id : Int64) (p : π) : Chart α π :=
  { c.know id with position := Function.update c.position id (some p) }

/-- Two identifiers are known, and a link leads from one to the other. -/
def connect (c : Chart α π) (a b : Int64) (l : Link α) : Chart α π :=
  { ((c.know a).know b).name l.className with link := Function.update c.link (a, b) (some l) }

theorem know_eq {c : Chart α π} {id : Int64} (h : id ∈ c.known) : c.know id = c := by
  unfold know
  rw [Set.insert_eq_of_mem h]

theorem name_eq {c : Chart α π} {n : String} (h : n ∈ c.named) : c.name n = c := by
  unfold name
  rw [Set.insert_eq_of_mem h]

end Chart

theorem chart_empty [Cost α] : (empty : Network α π).chart = Chart.empty := by
  have hlookup (i : Int64) : (empty : Network α π).lookup i = none := by simp [lookup, empty]
  simp only [chart, Chart.empty, Chart.mk.injEq]
  refine ⟨?_, ?_, ?_, ?_⟩
  · simp [hlookup]
  · simp [empty]
  · funext i
    rw [positionOf, hlookup]
    rfl
  · funext q
    rw [linkOf, hlookup]
    rfl

/-! ## Classes -/

/-- The names of classes and their numbers match, and every edge has a class with a name. -/
structure Classified (g : Network α π) : Prop where
  number_iff : ∀ (n : String) (c : ClassId), g.classNumbers[n]? = some c ↔ g.classes[c.index]? = some n
  inRange : ∀ v, ∀ e ∈ g.out v, e.className.index < g.classes.size

section Views
variable {g : Network α π} {id : Int64} {u v : NodeId} {e : Edge α}

theorem classes_withRoad [Quantity α] : (g.withRoad u e).classes = g.classes := by
  unfold withRoad link noteSpeed
  simp only
  split_ifs <;> rfl

theorem classNumbers_withRoad [Quantity α] : (g.withRoad u e).classNumbers = g.classNumbers := by
  unfold withRoad link noteSpeed
  simp only
  split_ifs <;> rfl

theorem classNumbers_withClass (n m : String) : (g.withClass n).classNumbers[m]? =
    if n = m then some ⟨g.classes.size⟩ else g.classNumbers[m]? := by
  simp [withClass, Std.HashMap.getElem?_insert]

theorem edge?_withNode (p : Option π) : (g.withNode id p).edge? u v = g.edge? u v := by
  simp [edge?]

theorem edge?_moved (w : NodeId) (p : π) : (g.moved w p).edge? u v = g.edge? u v := by
  simp [edge?]

theorem mem_of_edge? (h : g.edge? u v = some e) : e ∈ g.out u ∧ e.target = v :=
  ⟨List.mem_of_find?_eq_some h, by simpa using List.find?_some h⟩

theorem find?_putEdge {es : List (Edge α)} : (putEdge e es).find? (fun f => f.target = v) =
    if v = e.target then some e else es.find? fun f => f.target = v := by
  induction es with
  | nil =>
    by_cases hv : v = e.target
    · simp [putEdge, hv]
    · simp [putEdge, hv, Ne.symm hv]
  | cons f rest ih =>
    unfold putEdge
    by_cases hf : f.target = e.target
    · by_cases hv : v = e.target
      · simp [hf, hv]
      · simp [hf, hv, Ne.symm hv]
    · rw [if_neg hf]
      by_cases hfv : f.target = v
      · have hv : v ≠ e.target := fun h => hf (hfv.trans h)
        simp [hfv, hv]
      · simp only [List.find?_cons, hfv, decide_false, ih]

theorem edge?_withRoad [Quantity α] (hu : u.index < g.nodeCount) (w x : NodeId) :
    (g.withRoad u e).edge? w x = if w = u ∧ x = e.target then some e else g.edge? w x := by
  unfold edge?
  rw [out_withRoad hu]
  by_cases hw : w = u
  · simp [hw, find?_putEdge]
  · simp [hw]

end Views

namespace Classified
variable {g : Network α π}

theorem empty [Cost α] : (Network.empty : Network α π).Classified where
  number_iff n c := by simp [Network.empty]
  inRange v e he := by simp [out, node?, Network.empty] at he

/-- A class keeps its name. -/
theorem getElem?_withClass {n : String} {c : ClassId} (hc : c.index < g.classes.size) :
    (g.withClass n).classes[c.index]? = g.classes[c.index]? := by
  simp [withClass, Array.getElem?_push, Nat.ne_of_lt hc]

theorem className_withClass {n : String} {c : ClassId} (hc : c.index < g.classes.size) :
    (g.withClass n).className c = g.className c := by
  unfold className
  rw [Array.getD_eq_getD_getElem?, Array.getD_eq_getD_getElem?, getElem?_withClass hc]

theorem withNode (h : g.Classified) (id : Int64) (p : Option π) : (g.withNode id p).Classified where
  number_iff := h.number_iff
  inRange v e he := h.inRange v e (out_withNode (g := g) p ▸ he)

theorem moved (h : g.Classified) (v : NodeId) (p : π) : (g.moved v p).Classified where
  number_iff := h.number_iff
  inRange w e he := h.inRange w e (out_moved (g := g) p ▸ he)

theorem withClass (h : g.Classified) {n : String} (hn : g.classNumbers[n]? = none) :
    (g.withClass n).Classified where
  number_iff m c := by
    have hpush : (g.withClass n).classes[c.index]? =
        if c.index = g.classes.size then some n else g.classes[c.index]? := by
      simp [Network.withClass, Array.getElem?_push]
    rw [classNumbers_withClass, hpush]
    by_cases hc : c.index = g.classes.size
    · -- The new number belongs to the new name alone.
      rw [if_pos hc, Option.some.injEq]
      by_cases hm : n = m
      · have : (⟨g.classes.size⟩ : ClassId) = c := by rw [← hc]
        simp [hm, this]
      · rw [if_neg hm, h.number_iff, hc]
        simp [hm]
    · rw [if_neg hc]
      by_cases hm : n = m
      · rw [if_pos hm, ← h.number_iff, ← hm, hn]
        simp only [Option.some.injEq, reduceCtorEq, iff_false]
        exact fun he => hc (by rw [← he])
      · rw [if_neg hm, h.number_iff]
  inRange v e he := by
    have := h.inRange v e he
    simp only [Network.withClass, Array.size_push]
    omega

theorem withRoad [Quantity α] (h : g.Classified) {u : NodeId} {e : Edge α}
    (hu : u.index < g.nodeCount) (he : e.className.index < g.classes.size) :
    (g.withRoad u e).Classified where
  number_iff n c := by rw [classNumbers_withRoad, classes_withRoad, h.number_iff]
  inRange v f hf := by
    rw [classes_withRoad]
    rw [out_withRoad hu] at hf
    split at hf
    · rcases mem_putEdge hf with rfl | hf
      · exact he
      · exact h.inRange u f hf
    · exact h.inRange v f hf

theorem index_lt (h : g.Classified) {n : String} {c : ClassId} (hc : g.classNumbers[n]? = some c) :
    c.index < g.classes.size :=
  (Array.getElem?_eq_some_iff.1 ((h.number_iff n c).1 hc)).1

theorem className_eq (h : g.Classified) {n : String} {c : ClassId}
    (hc : g.classNumbers[n]? = some c) : g.className c = n := by
  unfold className
  rw [Array.getD_eq_getD_getElem?, (h.number_iff n c).1 hc, Option.getD_some]

end Classified

/-! ## Charts of updated networks -/

section Updated
variable {g : Network α π}

theorem linkOf_eq_none {a b : Int64} (h : g.lookup a = none ∨ g.lookup b = none) :
    g.linkOf a b = none := by
  unfold linkOf
  rcases h with h | h
  · rw [h]
    rfl
  · rw [h]
    cases g.lookup a <;> rfl

/-- Where both ends are known, the link is the edge between them. -/
theorem linkOf_eq {a b : Int64} {u v : NodeId} (ha : g.lookup a = some u) (hb : g.lookup b = some v) :
    g.linkOf a b =
      (g.edge? u v).map fun e => ⟨e.length, e.travel, g.className e.className⟩ := by
  rw [linkOf, ha, hb]
  rfl

/-- A link is an edge. -/
theorem exists_edge_of_linkOf {a b : Int64} {l : Link α} (h : g.linkOf a b = some l) :
    ∃ u e, g.lookup a = some u ∧ e ∈ g.out u ∧ g.lookup b = some e.target ∧ e.length = l.length ∧
      e.travel = l.travel := by
  obtain ⟨u, hu, h⟩ := Option.bind_eq_some_iff.1 h
  obtain ⟨v, hv, h⟩ := Option.bind_eq_some_iff.1 h
  obtain ⟨e, he, rfl⟩ := Option.map_eq_some_iff.1 h
  unfold edge? at he
  obtain rfl : e.target = v := by simpa using List.find?_some he
  exact ⟨u, e, hu, List.mem_of_find?_eq_some he, hv, rfl, rfl⟩

namespace WellFormed

/-- An edge leads between two nodes of a well-formed network. -/
theorem edge?_eq_none (hg : g.WellFormed) {u v : NodeId}
    (h : g.nodeCount ≤ u.index ∨ g.nodeCount ≤ v.index) : g.edge? u v = none := by
  cases he : g.edge? u v with
  | none => rfl
  | some e =>
    obtain ⟨hout, rfl⟩ := mem_of_edge? he
    have hu := index_lt_of_mem_out hout
    have hv := hg.targets u e hout
    omega

theorem linkOf_withNode (hg : g.WellFormed) {id : Int64} (hid : g.lookup id = none) (p : Option π)
    (a b : Int64) : (g.withNode id p).linkOf a b = g.linkOf a b := by
  have hfresh {i : Int64} {w : NodeId} (hw : g.lookup i = some w) :
      (g.withNode id p).lookup i = some w := by
    rw [lookup_withNode, if_neg, hw]
    rintro rfl
    rw [hw] at hid
    cases hid
  have hnew {i : Int64} {w : NodeId} (hi : g.lookup i = none)
      (hw : (g.withNode id p).lookup i = some w) : w = ⟨g.nodeCount⟩ := by
    rw [lookup_withNode, hi] at hw
    split at hw
    · exact (Option.some.inj hw).symm
    · cases hw
  cases ha : g.lookup a with
  | some u =>
    cases hb : g.lookup b with
    | some v =>
      rw [linkOf_eq (hfresh ha) (hfresh hb), linkOf_eq ha hb, edge?_withNode]
      rfl
    | none =>
      rw [linkOf_eq_none (.inr hb)]
      cases hv : (g.withNode id p).lookup b with
      | none => exact linkOf_eq_none (.inr hv)
      | some v =>
        rw [linkOf_eq (hfresh ha) hv, edge?_withNode, hg.edge?_eq_none (.inr (by rw [hnew hb hv]))]
        rfl
  | none =>
    rw [linkOf_eq_none (.inl ha)]
    cases hu : (g.withNode id p).lookup a with
    | none => exact linkOf_eq_none (.inl hu)
    | some u =>
      cases hv : (g.withNode id p).lookup b with
      | none => exact linkOf_eq_none (.inr hv)
      | some v =>
        rw [linkOf_eq hu hv, edge?_withNode, hg.edge?_eq_none (.inl (by rw [hnew ha hu]))]
        rfl

theorem chart_withNode (hg : g.WellFormed) {id : Int64} (hid : g.lookup id = none) (p : Option π) :
    (g.withNode id p).chart =
      { g.chart.know id with position := Function.update g.positionOf id p } := by
  simp only [chart, Chart.know, Chart.mk.injEq]
  refine ⟨?_, rfl, ?_, ?_⟩
  · ext i
    simp only [Set.mem_ofPred_eq, lookup_withNode, Set.mem_insert_iff, eq_comm (a := id)]
    by_cases hi : i = id <;> simp [hi]
  · funext i
    rw [hg.positionOf_withNode, Function.update_apply]
  · funext q
    exact hg.linkOf_withNode hid p q.1 q.2

theorem chart_moved (hg : g.WellFormed) {id : Int64} {v : NodeId} (hv : g.lookup id = some v) (p : π) :
    (g.moved v p).chart = g.chart.place id p := by
  have hknown : id ∈ g.chart.known := by simp [chart, hv]
  rw [Chart.place, Chart.know_eq hknown]
  simp only [chart, Chart.mk.injEq]
  refine ⟨rfl, rfl, ?_, ?_⟩
  · funext i
    rw [hg.positionOf_moved hv, Function.update_apply]
  · funext q
    simp only [linkOf, lookup_moved, edge?_moved]
    rfl

theorem chart_withRoad [Quantity α] (hg : g.WellFormed) {a b : Int64} {u v : NodeId}
    (ha : g.lookup a = some u) (hb : g.lookup b = some v) (length travel : α) (c : ClassId) :
    (g.withRoad u ⟨v, length, travel, c⟩).chart =
      { g.chart with
        link := Function.update g.chart.link (a, b) (some ⟨length, travel, g.className c⟩) } := by
  have hclass (k : ClassId) : (g.withRoad u ⟨v, length, travel, c⟩).className k = g.className k := by
    simp only [className, classes_withRoad]
  have hinj {i j : Int64} {w : NodeId} (hi : g.lookup i = some w) (hj : g.lookup j = some w) :
      i = j :=
    Option.some.inj (((hg.lookup_iff i w).1 hi).symm.trans ((hg.lookup_iff j w).1 hj))
  simp only [chart, Chart.mk.injEq]
  refine ⟨?_, ?_, ?_, ?_⟩
  · simp only [lookup_withRoad]
  · simp only [classNumbers_withRoad]
  · funext i
    unfold positionOf
    rw [lookup_withRoad]
    exact Option.bind_congr fun w _ => position?_withRoad u _ w
  · funext q
    obtain ⟨x, y⟩ := q
    simp only [Function.update_apply, Prod.mk.injEq, linkOf, lookup_withRoad,
      edge?_withRoad (hg.index_lt ha), hclass]
    by_cases hxy : x = a ∧ y = b
    · obtain ⟨rfl, rfl⟩ := hxy
      simp [ha, hb]
    · rw [if_neg hxy]
      cases hx : g.lookup x with
      | none => rfl
      | some w =>
        cases hy : g.lookup y with
        | none => rfl
        | some z =>
          have hne : ¬ (w = u ∧ z = v) := by
            rintro ⟨rfl, rfl⟩
            exact hxy ⟨hinj hx ha, hinj hy hb⟩
          simp only [Option.bind_some, if_neg hne]

end WellFormed

theorem Classified.chart_withClass (hc : g.Classified) (n : String) :
    (g.withClass n).chart = g.chart.name n := by
  simp only [chart, Chart.name, Chart.mk.injEq]
  refine ⟨rfl, ?_, rfl, ?_⟩
  · ext m
    simp only [Set.mem_ofPred_eq, classNumbers_withClass, Set.mem_insert_iff, eq_comm (a := n)]
    by_cases hm : m = n
    · simp [hm]
    · rw [if_neg hm, or_iff_right hm]
  · funext q
    unfold linkOf
    simp only [lookup_withClass]
    refine Option.bind_congr fun u _ => Option.bind_congr fun v _ => ?_
    have hedge : (g.withClass n).edge? u v = g.edge? u v := rfl
    rw [hedge]
    cases he : g.edge? u v with
    | none => rfl
    | some e =>
      rw [Option.map_some, Option.map_some,
        Classified.className_withClass (hc.inRange u e (mem_of_edge? he).1)]

end Updated

/-! ## Charts and operations -/

section Operations
variable {g g' : Network α π}

theorem WellFormed.chart_place (hg : g.WellFormed) {id : Int64} {p : π} {fresh : Bool}
    (h : g.place id p = (.ok fresh, g')) : g'.chart = g.chart.place id p := by
  have hok : (g.place id p).1 = .ok fresh := by rw [h]
  have hsnd : (g.place id p).2 = g' := by rw [h]
  rcases place_ok hok with ⟨v, hv, he⟩ | ⟨hid, -, he⟩
  · rw [← hsnd, he]
    exact hg.chart_moved hv p
  · rw [← hsnd, he]
    exact hg.chart_withNode hid (some p)

theorem WellFormed.chart_ensure (hg : g.WellFormed) {id : Int64} {v : NodeId}
    (h : g.ensure id = (.ok v, g')) : g'.chart = g.chart.know id := by
  rcases g.ensure_cases id with ⟨w, hw, he⟩ | ⟨hid, -, he⟩ | he
  · rw [h] at he
    cases he
    exact (Chart.know_eq (by simp [chart, hw])).symm
  · rw [h] at he
    cases he
    have hnone : g.positionOf id = none := by
      rw [positionOf, hid]
      rfl
    rw [hg.chart_withNode hid, ← hnone, Function.update_eq_self]
    rfl
  · rw [h] at he
    cases he

theorem intern_cases (g : Network α π) (n : String) :
    (∃ c, g.classNumbers[n]? = some c ∧ g.intern n = (.ok c, g)) ∨
      (g.classNumbers[n]? = none ∧ g.intern n = (.ok ⟨g.classes.size⟩, g.withClass n)) ∨
      g.intern n = (.error .classes, g) := by
  unfold intern
  cases hn : g.classNumbers[n]? with
  | some c => exact .inl ⟨c, rfl, rfl⟩
  | none =>
    simp only
    split
    · exact .inr (.inl ⟨trivial, rfl⟩)
    · exact .inr (.inr rfl)

theorem classNumbers_intern {n : String} {c : ClassId} (h : g.intern n = (.ok c, g')) :
    g'.classNumbers[n]? = some c := by
  rcases g.intern_cases n with ⟨d, hd, he⟩ | ⟨-, he⟩ | he
  · rw [h] at he
    cases he
    exact hd
  · rw [h] at he
    cases he
    rw [classNumbers_withClass, if_pos rfl]
  · rw [h] at he
    cases he

theorem Classified.chart_intern (hc : g.Classified) {n : String} {c : ClassId}
    (h : g.intern n = (.ok c, g')) : g'.chart = g.chart.name n := by
  rcases g.intern_cases n with ⟨d, hd, he⟩ | ⟨-, he⟩ | he
  · rw [h] at he
    cases he
    exact (Chart.name_eq (Option.isSome_iff_exists.2 ⟨c, hd⟩)).symm
  · rw [h] at he
    cases he
    exact hc.chart_withClass n
  · rw [h] at he
    cases he

namespace Classified

theorem place (hc : g.Classified) (id : Int64) (p : π) : (g.place id p).2.Classified := by
  cases h : (g.place id p).1 with
  | error e =>
    rw [place_error h]
    exact hc
  | ok fresh =>
    rcases place_ok h with ⟨v, -, he⟩ | ⟨-, -, he⟩
    · rw [he]
      exact hc.moved v p
    · rw [he]
      exact hc.withNode id (some p)

theorem ensure (hc : g.Classified) (id : Int64) : (g.ensure id).2.Classified := by
  rcases g.ensure_cases id with ⟨v, -, he⟩ | ⟨-, -, he⟩ | he
  · rw [he]
    exact hc
  · rw [he]
    exact hc.withNode id none
  · rw [he]
    exact hc

theorem intern (hc : g.Classified) (n : String) : (g.intern n).2.Classified := by
  rcases g.intern_cases n with ⟨c, -, he⟩ | ⟨hn, he⟩ | he
  · rw [he]
    exact hc
  · rw [he]
    exact hc.withClass hn
  · rw [he]
    exact hc

end Classified

variable [Quantity α]

/-- To add an edge is to find or make its ends and its class, and to put it between them. -/
inductive Added (g : Network α π) (source target : Int64) (length travel : α) (className : String)
    (g' : Network α π) : Prop
  | intro {u v : NodeId} {c : ClassId} {g₁ g₂ g₃ : Network α π} :
      g.ensure source = (.ok u, g₁) → g₁.ensure target = (.ok v, g₂) →
      g₂.intern className = (.ok c, g₃) → g' = g₃.withRoad u ⟨v, length, travel, c⟩ →
      Added g source target length travel className g'

theorem addEdge_added {source target : Int64} {length travel : α} {className : String} {fresh : Bool}
    (h : g.addEdge source target length travel className = (.ok fresh, g')) :
    Added g source target length travel className g' := by
  unfold addEdge at h
  rcases h1 : g.ensure source with ⟨_ | u, g₁⟩
  · simp [h1] at h
  rcases h2 : g₁.ensure target with ⟨_ | v, g₂⟩
  · simp [h1, h2] at h
  rcases h3 : g₂.intern className with ⟨_ | c, g₃⟩
  · simp [h1, h2, h3] at h
  · simp only [h1, h2, h3, Prod.mk.injEq] at h
    exact .intro h1 h2 h3 h.2.symm

/-- What is at hand when the edge is put. -/
structure Added.Settled (source target : Int64) (className : String) (u v : NodeId) (c : ClassId)
    (g₃ : Network α π) : Prop where
  wellFormed : g₃.WellFormed
  source : g₃.lookup source = some u
  target : g₃.lookup target = some v
  classified : g₃.Classified
  named : g₃.classNumbers[className]? = some c

theorem Added.settled (hg : g.WellFormed) (hc : g.Classified) {source target : Int64}
    {className : String} {u v : NodeId} {c : ClassId} {g₁ g₂ g₃ : Network α π}
    (h1 : g.ensure source = (.ok u, g₁)) (h2 : g₁.ensure target = (.ok v, g₂))
    (h3 : g₂.intern className = (.ok c, g₃)) :
    Settled source target className u v c g₃ := by
  have u1 : Updates g g₁ := by simpa [h1] using updates_of_joins (g.ensure_joins source)
  have u2 : Updates g₁ g₂ := by simpa [h2] using updates_of_joins (g₁.ensure_joins target)
  have u3 : Updates g₂ g₃ := by simpa [h3] using updates_of_joins (g₂.intern_joins className)
  have c1 : g₁.Classified := by simpa [h1] using hc.ensure source
  have c2 : g₂.Classified := by simpa [h2] using c1.ensure target
  have c3 : g₃.Classified := by simpa [h3] using c2.intern className
  have ok1 : (g.ensure source).1 = .ok u := by rw [h1]
  have ok2 : (g₁.ensure target).1 = .ok v := by rw [h2]
  have hsource : g₁.lookup source = some u := by simpa [h1] using lookup_ensure ok1
  have htarget : g₂.lookup target = some v := by simpa [h2] using lookup_ensure ok2
  exact ⟨((hg.updates u1).updates u2).updates u3, lookup_updates (u2.trans u3) hsource,
    lookup_updates u3 htarget, c3, classNumbers_intern h3⟩

/-- A link is written when an edge is added, and its ends and its class are known. -/
theorem WellFormed.chart_addEdge (hg : g.WellFormed) (hc : g.Classified) {source target : Int64}
    {length travel : α} {className : String} {fresh : Bool}
    (h : g.addEdge source target length travel className = (.ok fresh, g')) :
    g'.chart = g.chart.connect source target ⟨length, travel, className⟩ := by
  obtain ⟨h1, h2, h3, rfl⟩ := addEdge_added h
  rename_i u v c g₁ g₂ g₃
  have hs := Added.settled hg hc h1 h2 h3
  have w1 : g₁.WellFormed := by
    simpa [h1] using hg.updates (updates_of_joins (g.ensure_joins source))
  have c1 : g₁.Classified := by simpa [h1] using hc.ensure source
  have c2 : g₂.Classified := by simpa [h2] using c1.ensure target
  have hchart : g₃.chart = ((g.chart.know source).know target).name className := by
    rw [c2.chart_intern h3, w1.chart_ensure h2, hg.chart_ensure h1]
  rw [hs.wellFormed.chart_withRoad hs.source hs.target, hs.classified.className_eq hs.named, hchart]
  rfl

/-- Whatever comes of it, adding an edge keeps classes and their names in step. -/
theorem Classified.addEdge (hg : g.WellFormed) (hc : g.Classified) (source target : Int64)
    (length travel : α) (className : String) :
    (g.addEdge source target length travel className).2.Classified := by
  unfold Network.addEdge
  rcases h1 : g.ensure source with ⟨_ | u, g₁⟩
  · simpa [h1] using hc.ensure source
  have c1 : g₁.Classified := by simpa [h1] using hc.ensure source
  simp only
  rcases h2 : g₁.ensure target with ⟨_ | v, g₂⟩
  · simpa [h2] using c1.ensure target
  have c2 : g₂.Classified := by simpa [h2] using c1.ensure target
  simp only
  rcases h3 : g₂.intern className with ⟨_ | c, g₃⟩
  · simpa [h3] using c2.intern className
  have hs := Added.settled hg hc h1 h2 h3
  exact hs.classified.withRoad (hs.wellFormed.index_lt hs.source) (hs.classified.index_lt hs.named)

theorem Grown.classified (h : g.Grown) : g.Classified := by
  induction h with
  | empty => exact .empty
  | place id p _ ih => exact ih.place id p
  | ensure id _ ih => exact ih.ensure id
  | addEdge source target length travel className hg ih =>
    exact .addEdge hg.wellFormed ih source target length travel className

end Operations

end RoadRouting.Network
