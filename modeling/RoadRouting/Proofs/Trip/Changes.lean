import Mathlib.Data.List.Induction
import RoadRouting.Proofs.Network.TopSpeed
import RoadRouting.Trip.Loader

/-!
# What changes write

Changes that are made one after the other write into the chart of the network (`MakesAll.chart`), and
the last one that writes at a place is the one that counts (`position_written`, `link_written`). The
fastest speed depends on what was added only, and not on the order (`MakesAll.isTop_append`). While there
is room for two more nodes and a class, any change can be made (`HasRoom.apply`).
-/

namespace RoadRouting.Trip
set_option autoImplicit false
open Network (Chart ClassId Full IsTop LawfulCost Link NodeId Quantity)

variable {α π : Type}

namespace Change

/-- What a change writes into a chart. -/
def write : Change α π → Chart α π → Chart α π
  | .place id p, c => c.place id p
  | .connect a b length travel name, c => c.connect a b ⟨length, travel, name⟩

/-- A change names an identifier. -/
def Names (id : Int64) : Change α π → Prop
  | .place i _ => i = id
  | .connect a b .. => a = id ∨ b = id

/-- The class that a change names. -/
def className? : Change α π → Option String
  | .place .. => none
  | .connect _ _ _ _ name => some name

/-- The position that a change gives to an identifier. -/
def position? (id : Int64) : Change α π → Option π
  | .place i p => if i = id then some p else none
  | .connect .. => none

/-- The link that a change puts between two identifiers. -/
def link? (q : Int64 × Int64) : Change α π → Option (Link α)
  | .place .. => none
  | .connect a b length travel name => if (a, b) = q then some ⟨length, travel, name⟩ else none

/-- The speed of the edge that a change adds. -/
def speed? [Quantity α] : Change α π → Option α
  | .place .. => none
  | .connect _ _ length travel _ => Network.speed? length travel

/-- A change can be made, and makes of one network another. -/
def Makes [Quantity α] (c : Change α π) (g g' : Network α π) : Prop :=
  ∃ t t', c.apply g t = (.ok t', g')

end Change

/-- Changes can be made one after the other. -/
inductive MakesAll [Quantity α] : List (Change α π) → Network α π → Network α π → Prop
  | nil {g : Network α π} : MakesAll [] g g
  | cons {c : Change α π} {cs : List (Change α π)} {g g₁ g' : Network α π} :
      c.Makes g g₁ → MakesAll cs g₁ g' → MakesAll (c :: cs) g g'

/-- The chart that changes write from nothing. -/
def written (cs : List (Change α π)) : Chart α π := cs.foldl (fun chart c => c.write chart) .empty

section Making
variable [Quantity α] {c : Change α π} {cs ds : List (Change α π)} {g g₁ g' : Network α π}

/-- To make a change is to place a node or to add an edge. -/
theorem Change.Makes.cases (h : c.Makes g g') :
    (∃ id p fresh, c = .place id p ∧ g.place id p = (.ok fresh, g')) ∨
      ∃ a b length travel name fresh, c = .connect a b length travel name ∧
        g.addEdge a b length travel name = (.ok fresh, g') := by
  obtain ⟨t, t', h⟩ := h
  cases c with
  | place id p =>
    unfold Change.apply at h
    rcases he : g.place id p with ⟨_ | fresh, g₁⟩
    · simp [he] at h
    · simp only [he, Prod.mk.injEq] at h
      exact .inl ⟨id, p, fresh, rfl, by rw [he, h.2]⟩
  | connect a b length travel name =>
    unfold Change.apply at h
    rcases he : g.addEdge a b length travel name with ⟨_ | fresh, g₁⟩
    · simp [he] at h
    · simp only [he, Prod.mk.injEq] at h
      exact .inr ⟨a, b, length, travel, name, fresh, rfl, by rw [he, h.2]⟩

theorem Change.Makes.grown (hg : g.Grown) (h : c.Makes g g') : g'.Grown := by
  rcases h.cases with ⟨id, p, fresh, -, he⟩ | ⟨a, b, length, travel, name, fresh, -, he⟩
  · have hgrown := Network.Grown.place id p hg
    rwa [he] at hgrown
  · have hgrown := Network.Grown.addEdge a b length travel name hg
    rwa [he] at hgrown

theorem Change.Makes.chart (hg : g.Grown) (h : c.Makes g g') : g'.chart = c.write g.chart := by
  rcases h.cases with ⟨id, p, fresh, rfl, he⟩ | ⟨a, b, length, travel, name, fresh, rfl, he⟩
  · exact hg.wellFormed.chart_place he
  · exact hg.wellFormed.chart_addEdge hg.classified he

namespace MakesAll

theorem append (h : MakesAll cs g g₁) (h' : MakesAll ds g₁ g') : MakesAll (cs ++ ds) g g' := by
  induction h with
  | nil => exact h'
  | cons hc _ ih => exact .cons hc (ih h')

theorem grown (hg : g.Grown) (h : MakesAll cs g g') : g'.Grown := by
  induction h with
  | nil => exact hg
  | cons hc _ ih => exact ih (hc.grown hg)

theorem chart_eq (hg : g.Grown) (h : MakesAll cs g g') :
    g'.chart = cs.foldl (fun chart c => c.write chart) g.chart := by
  induction h with
  | nil => rfl
  | cons hc _ ih =>
    rw [ih (hc.grown hg), hc.chart hg]
    rfl

/-- Made from nothing, changes write the chart of the network. -/
theorem chart (h : MakesAll cs .empty g') : g'.chart = written cs := by
  rw [h.chart_eq .empty, Network.chart_empty]
  rfl

/-- The fastest speed is the top of the speeds of all edges that were added. -/
theorem isTop_append [LawfulCost α] {speeds : List α} (ht : IsTop speeds g.fastest)
    (h : MakesAll cs g g') : IsTop (speeds ++ cs.filterMap (·.speed?)) g'.fastest := by
  induction h generalizing speeds with
  | nil => simpa using ht
  | @cons c cs _ _ _ hc _ ih =>
    have hcons : (c :: cs).filterMap (·.speed?) = c.speed?.toList ++ cs.filterMap (·.speed?) := by
      rw [List.filterMap_cons]
      cases c.speed? <;> rfl
    rw [hcons, ← List.append_assoc]
    rcases hc.cases with ⟨id, p, fresh, rfl, he⟩ | ⟨a, b, length, travel, name, fresh, rfl, he⟩
    · rw [← Network.fastest_place he] at ht
      exact ih (by simpa [Change.speed?] using ht)
    · exact ih (ht.addEdge he)

end MakesAll

theorem makesAll_of_applyAll {t t' : Tally} (h : applyAll cs g t = (.ok t', g')) :
    MakesAll cs g g' := by
  induction cs generalizing g t with
  | nil =>
    cases h
    exact .nil
  | cons c rest ih =>
    unfold applyAll at h
    rcases he : c.apply g t with ⟨_ | t₁, g₁⟩
    · simp [he] at h
    · simp only [he] at h
      exact .cons ⟨t, t₁, he⟩ (ih h)

end Making

/-! ## The last one counts -/

section Written
variable {cs : List (Change α π)} {c : Change α π}

theorem written_snoc (cs : List (Change α π)) (c : Change α π) :
    written (cs ++ [c]) = c.write (written cs) := by
  simp [written, List.foldl_append]

theorem mem_known_written {id : Int64} : id ∈ (written cs).known ↔ ∃ c ∈ cs, c.Names id := by
  induction cs using List.reverseRecOn with
  | nil => simp [written, Chart.empty]
  | append_singleton cs c ih =>
    rw [written_snoc]
    have hwrite (chart : Chart α π) : id ∈ (c.write chart).known ↔ c.Names id ∨ id ∈ chart.known := by
      cases c with
      | place i p => simp [Change.write, Chart.place, Chart.know, Change.Names, eq_comm]
      | connect a b length travel name =>
        simp only [Change.write, Chart.connect, Chart.name, Chart.know, Set.mem_insert_iff, Change.Names,
          eq_comm (a := id)]
        tauto
    rw [hwrite, ih]
    simp only [List.mem_append, List.mem_singleton, or_and_right, exists_or, exists_eq_left]
    exact or_comm

theorem mem_named_written {n : String} :
    n ∈ (written cs).named ↔ ∃ c ∈ cs, c.className? = some n := by
  induction cs using List.reverseRecOn with
  | nil => simp [written, Chart.empty]
  | append_singleton cs c ih =>
    rw [written_snoc]
    have hwrite (chart : Chart α π) :
        n ∈ (c.write chart).named ↔ c.className? = some n ∨ n ∈ chart.named := by
      cases c with
      | place i p => simp [Change.write, Chart.place, Chart.know, Change.className?]
      | connect a b length travel name =>
        simp [Change.write, Chart.connect, Chart.name, Chart.know, Change.className?, eq_comm]
    rw [hwrite, ih]
    simp only [List.mem_append, List.mem_singleton, or_and_right, exists_or, exists_eq_left]
    exact or_comm

/-- A position is the last one that was given, or the one from before. -/
theorem position_foldl_write (cs : List (Change α π)) (chart : Chart α π) (id : Int64) :
    (cs.foldl (fun chart c => c.write chart) chart).position id =
      (cs.reverse.findSome? (·.position? id)).or (chart.position id) := by
  induction cs using List.reverseRecOn with
  | nil => rfl
  | append_singleton cs c ih =>
    rw [List.foldl_append, List.foldl_cons, List.foldl_nil, List.reverse_append,
      List.reverse_singleton, List.singleton_append, List.findSome?_cons]
    generalize cs.foldl (fun chart c => c.write chart) chart = before at ih ⊢
    cases c with
    | place i p =>
      by_cases hi : i = id
      · simp [Change.write, Chart.place, Change.position?, hi]
      · have hnone : (Change.place i p : Change α π).position? id = none := if_neg hi
        rw [hnone, ← ih]
        simp [Change.write, Chart.place, Function.update_of_ne (Ne.symm hi)]
    | connect a b length travel name => exact ih

/-- Of what is written from nothing the last position counts. -/
theorem position_written (cs : List (Change α π)) (id : Int64) :
    (written cs).position id = cs.reverse.findSome? (·.position? id) := by
  rw [written, position_foldl_write]
  exact Option.or_none

/-- A link is the last one that was put. -/
theorem link_written (cs : List (Change α π)) (q : Int64 × Int64) :
    (written cs).link q = cs.reverse.findSome? (·.link? q) := by
  induction cs using List.reverseRecOn with
  | nil => rfl
  | append_singleton cs c ih =>
    rw [written_snoc, List.reverse_append, List.reverse_singleton, List.singleton_append,
      List.findSome?_cons, ← ih]
    cases c with
    | place i p => rfl
    | connect a b length travel name =>
      by_cases hq : (a, b) = q
      · simp [Change.write, Chart.connect, Change.link?, hq]
      · simp [Change.write, Chart.connect, Change.link?, hq, Function.update_of_ne (Ne.symm hq)]

end Written

/-! ## Room -/

section Room
variable {g g' : Network α π}

/-- There is room for so many more nodes and classes. -/
structure HasRoom (g : Network α π) (nodes classes : Nat) : Prop where
  nodes : g.nodeCount + nodes ≤ NodeId.invalid.index
  classes : g.classes.size + classes ≤ ClassId.invalid.index

theorem HasRoom.mono {n k m j : Nat} (h : HasRoom g n k) (hn : m ≤ n) (hk : j ≤ k) :
    HasRoom g m j :=
  ⟨by have := h.nodes; omega, by have := h.classes; omega⟩

theorem HasRoom.ensure {n k : Nat} (h : HasRoom g (n + 1) k) (id : Int64) :
    ∃ v g', g.ensure id = (.ok v, g') ∧ HasRoom g' n k := by
  obtain ⟨hn, hk⟩ := h
  unfold Network.ensure
  cases hl : g.lookup id with
  | some v => exact ⟨v, g, rfl, by omega, hk⟩
  | none =>
    rw [Network.push_eq, if_pos (by omega)]
    exact ⟨_, _, rfl, by rw [Network.nodeCount_withNode]; omega, hk⟩

theorem HasRoom.intern {n k : Nat} (h : HasRoom g n (k + 1)) (name : String) :
    ∃ c g', g.intern name = (.ok c, g') ∧ HasRoom g' n k := by
  obtain ⟨hn, hk⟩ := h
  unfold Network.intern
  cases hl : g.classNumbers[name]? with
  | some c => exact ⟨c, g, rfl, hn, by omega⟩
  | none =>
    have hlt : (⟨g.classes.size⟩ : ClassId).index < ClassId.invalid.index := by
      show g.classes.size < ClassId.invalid.index
      omega
    rw [if_pos hlt]
    exact ⟨_, _, rfl, hn, by simp only [Array.size_push]; omega⟩

theorem HasRoom.place {n k : Nat} (h : HasRoom g (n + 1) k) (id : Int64) (p : π) :
    ∃ fresh g', g.place id p = (.ok fresh, g') ∧ HasRoom g' n k := by
  obtain ⟨hn, hk⟩ := h
  unfold Network.place
  cases hl : g.lookup id with
  | some v =>
    have hcount : (g.moved v p).nodeCount = g.nodeCount := Network.nodeCount_moved p
    exact ⟨_, _, rfl, by rw [← hcount] at hn; exact Nat.le_of_succ_le hn, hk⟩
  | none =>
    rw [Network.push_eq, if_pos (by omega)]
    exact ⟨_, _, rfl, by rw [Network.nodeCount_withNode]; omega, hk⟩

variable [Quantity α]

theorem HasRoom.addEdge {n k : Nat} (h : HasRoom g (n + 2) (k + 1)) (a b : Int64) (length travel : α)
    (name : String) : ∃ fresh g', g.addEdge a b length travel name = (.ok fresh, g') ∧ HasRoom g' n k := by
  obtain ⟨u, g₁, h1, hr1⟩ := HasRoom.ensure (n := n + 1) h a
  obtain ⟨v, g₂, h2, hr2⟩ := hr1.ensure b
  obtain ⟨c, g₃, h3, hr3⟩ := hr2.intern name
  unfold Network.addEdge
  simp only [h1, h2, h3]
  refine ⟨_, _, rfl, ?_, ?_⟩
  · have hcount : (g₃.withRoad u ⟨v, length, travel, c⟩).nodeCount = g₃.nodeCount :=
      Network.nodeCount_withRoad
    have hn := hr3.nodes
    rw [← hcount] at hn
    exact hn
  · have hsize : (g₃.withRoad u ⟨v, length, travel, c⟩).classes = g₃.classes :=
      Network.classes_withRoad
    have hk := hr3.classes
    rw [← hsize] at hk
    exact hk

/-- With room for two nodes and a class any change can be made. -/
theorem HasRoom.apply {n k : Nat} (h : HasRoom g (n + 2) (k + 1)) (c : Change α π) (t : Tally) :
    ∃ t' g', c.apply g t = (.ok t', g') ∧ HasRoom g' n k := by
  cases c with
  | place id p =>
    obtain ⟨fresh, g', hp, hr⟩ := HasRoom.place (n := n + 1) h id p
    unfold Change.apply
    simp only [hp]
    exact ⟨_, _, rfl, by have := hr.nodes; omega, by have := hr.classes; omega⟩
  | connect a b length travel name =>
    obtain ⟨fresh, g', he, hr⟩ := h.addEdge a b length travel name
    unfold Change.apply
    simp only [he]
    exact ⟨_, _, rfl, hr⟩

/-- So can as many changes as there is room for. -/
theorem HasRoom.applyAll {cs : List (Change α π)} {n k : Nat}
    (h : HasRoom g (n + 2 * cs.length) (k + cs.length)) (t : Tally) :
    ∃ t' g', Trip.applyAll cs g t = (.ok t', g') ∧ HasRoom g' n k := by
  induction cs generalizing g t with
  | nil => exact ⟨t, g, rfl, h⟩
  | cons c rest ih =>
    have h2 : HasRoom g (n + 2 * rest.length + 2) (k + rest.length + 1) :=
      ⟨by simpa [Nat.mul_add, Nat.add_assoc] using h.nodes,
        by simpa [Nat.add_assoc] using h.classes⟩
    obtain ⟨t₁, g₁, h1, hr⟩ := h2.apply c t
    obtain ⟨t', g', hrest, hr'⟩ := ih hr t₁
    refine ⟨t', g', ?_, hr'⟩
    simp only [Trip.applyAll, h1, hrest]

end Room
end RoadRouting.Trip
