import RoadRouting.Proofs.Network.Chart

/-!
# What is refused

A network that is full refuses what it has no room for. A node is refused before anything is changed, and so
is a class. An edge is refused after its ends were made sure of: those of them that are strangers and that
there is room for stay behind as nodes without position (`Refused`). Nothing else is left of it.
-/

namespace RoadRouting.Network
set_option autoImplicit false

variable {α π : Type}

/-- How many nodes there still is room for. -/
def room (g : Network α π) : Nat := NodeId.invalid.index - g.nodeCount

/-- An identifier, if it is not known. -/
def stranger (g : Network α π) (id : Int64) : List Int64 := if g.lookup id = none then [id] else []

/-- The ends of an edge that are not known, each once. -/
def strangers (g : Network α π) (source target : Int64) : List Int64 :=
  g.stranger source ++ if target = source then [] else g.stranger target

/-- The network with some more nodes, of which only the identifiers are known. -/
def withStrangers (g : Network α π) (ids : List Int64) : Network α π :=
  ids.foldl (fun g id => g.withNode id none) g

/-! ## Strangers -/

section Strangers
variable {g : Network α π} {id source target : Int64} {ids : List Int64}

theorem withStrangers_append (g : Network α π) (xs ys : List Int64) :
    g.withStrangers (xs ++ ys) = (g.withStrangers xs).withStrangers ys := List.foldl_append

@[simp] theorem nodeCount_withStrangers (g : Network α π) (ids : List Int64) :
    (g.withStrangers ids).nodeCount = g.nodeCount + ids.length := by
  induction ids generalizing g with
  | nil => rfl
  | cons id rest ih =>
    have hrest := ih (g.withNode id none)
    rw [nodeCount_withNode, Nat.add_right_comm] at hrest
    exact hrest

theorem room_withStrangers (g : Network α π) (ids : List Int64) :
    (g.withStrangers ids).room = g.room - ids.length := by
  rw [room, room, nodeCount_withStrangers, Nat.sub_sub]

/-- Strangers touch nothing but the nodes. -/
theorem withStrangers_frame (g : Network α π) (ids : List Int64) :
    ∃ nodes numbers, g.withStrangers ids = { g with nodes, numbers } := by
  induction ids generalizing g with
  | nil => exact ⟨g.nodes, g.numbers, rfl⟩
  | cons id rest ih => exact ih (g.withNode id none)

theorem classes_withStrangers (g : Network α π) (ids : List Int64) :
    (g.withStrangers ids).classes = g.classes := by
  obtain ⟨nodes, numbers, h⟩ := g.withStrangers_frame ids
  rw [h]

theorem classNumbers_withStrangers (g : Network α π) (ids : List Int64) :
    (g.withStrangers ids).classNumbers = g.classNumbers := by
  obtain ⟨nodes, numbers, h⟩ := g.withStrangers_frame ids
  rw [h]

theorem out_withStrangers (g : Network α π) (ids : List Int64) (v : NodeId) :
    (g.withStrangers ids).out v = g.out v := by
  induction ids generalizing g with
  | nil => rfl
  | cons id rest ih => exact (ih (g.withNode id none)).trans (out_withNode none)

theorem lookup_withStrangers_of_not_mem (h : id ∉ ids) :
    (g.withStrangers ids).lookup id = g.lookup id := by
  induction ids generalizing g with
  | nil => rfl
  | cons other rest ih =>
    obtain ⟨hne, hrest⟩ := not_or.1 (mt List.mem_cons.2 h)
    refine (ih (g := g.withNode other none) hrest).trans ?_
    rw [lookup_withNode, if_neg (Ne.symm hne)]

/-- Who has been taken in is no stranger any more. -/
theorem stranger_withStrangers : (g.withStrangers (g.stranger source)).stranger target =
    if target = source then [] else g.stranger target := by
  by_cases hst : target = source
  · subst hst
    rw [if_pos rfl]
    cases hl : g.lookup target with
    | some v => simp [stranger, withStrangers, hl]
    | none => simp [stranger, withStrangers, hl, lookup_withNode]
  · have hnot : target ∉ g.stranger source := by
      unfold stranger
      split
      · simpa using hst
      · simp
    rw [if_neg hst, stranger, lookup_withStrangers_of_not_mem hnot, stranger]

/-- One end after the other, these are the strangers. -/
theorem strangers_eq (g : Network α π) (source target : Int64) : g.strangers source target =
    g.stranger source ++ (g.withStrangers (g.stranger source)).stranger target := by
  rw [strangers, stranger_withStrangers]

/-- A stranger is taken in if there is room. -/
theorem ensure_spec (g : Network α π) (id : Int64) :
    ((g.stranger id).length ≤ g.room ∧
      ∃ v, g.ensure id = (.ok v, g.withStrangers (g.stranger id))) ∨
    (g.stranger id = [id] ∧ g.room = 0 ∧ g.ensure id = (.error .nodes, g)) := by
  unfold stranger ensure
  cases hl : g.lookup id with
  | some v => exact .inl ⟨Nat.zero_le _, v, rfl⟩
  | none =>
    simp only [if_true, push_eq]
    by_cases hn : g.nodeCount < NodeId.invalid.index
    · rw [if_pos hn]
      exact .inl ⟨Nat.sub_pos_of_lt hn, _, rfl⟩
    · rw [if_neg hn]
      exact .inr ⟨trivial, Nat.sub_eq_zero_of_le (Nat.not_lt.1 hn), rfl⟩

end Strangers

/-! ## Edges -/

section Edges
variable {g : Network α π} {source target : Int64} {name : String}

/-- A class is named if it is known or there is room. -/
theorem intern_spec (g : Network α π) (name : String) :
    ((g.classNumbers[name]? ≠ none ∨ g.classes.size < ClassId.invalid.index) ∧
      ∃ c g', g.intern name = (.ok c, g')) ∨
    (g.classNumbers[name]? = none ∧ ClassId.invalid.index ≤ g.classes.size ∧
      g.intern name = (.error .classes, g)) := by
  unfold intern
  cases hl : g.classNumbers[name]? with
  | some c => exact .inl ⟨.inl nofun, c, g, rfl⟩
  | none =>
    by_cases hc : g.classes.size < ClassId.invalid.index
    · simp only [if_pos hc]
      exact .inl ⟨.inr hc, _, _, rfl⟩
    · simp only [if_neg hc]
      exact .inr ⟨trivial, Nat.not_lt.1 hc, trivial⟩

variable [Quantity α] {length travel : α}

/-- How an edge is added, or what comes of it. -/
inductive Adding (g : Network α π) (source target : Int64) (name : String) :
    Except Full Bool × Network α π → Prop
  | crowded : g.room < (g.strangers source target).length →
      Adding g source target name
        (.error .nodes, g.withStrangers ((g.strangers source target).take g.room))
  | unnamed : (g.strangers source target).length ≤ g.room → g.classNumbers[name]? = none →
      ClassId.invalid.index ≤ g.classes.size →
      Adding g source target name (.error .classes, g.withStrangers (g.strangers source target))
  | added (fresh : Bool) (g' : Network α π) : (g.strangers source target).length ≤ g.room →
      (g.classNumbers[name]? ≠ none ∨ g.classes.size < ClassId.invalid.index) →
      Adding g source target name (.ok fresh, g')

theorem addEdge_spec (g : Network α π) (source target : Int64) (length travel : α) (name : String) :
    Adding g source target name (g.addEdge source target length travel name) := by
  have hends := g.strangers_eq source target
  have hroom := g.room_withStrangers (g.stranger source)
  unfold addEdge
  rcases g.ensure_spec source with ⟨hs, u, he⟩ | ⟨hs, hfull, he⟩
  · rw [he]
    simp only
    rcases (g.withStrangers (g.stranger source)).ensure_spec target with ⟨ht, v, he⟩ | ⟨ht, hfull, he⟩
    · rw [← withStrangers_append, ← hends] at he
      have hfits : (g.strangers source target).length ≤ g.room := by
        rw [hends, List.length_append]
        omega
      have hname := (g.withStrangers (g.strangers source target)).intern_spec name
      rw [classes_withStrangers, classNumbers_withStrangers] at hname
      rw [he]
      simp only
      rcases hname with ⟨hnamed, c, g', hi⟩ | ⟨hunknown, hfull, hi⟩
      · rw [hi]
        exact .added _ _ hfits hnamed
      · rw [hi]
        exact .unnamed hfits hunknown hfull
    · -- The target is refused; the source, if it was a stranger, has taken the last room.
      rw [ht] at hends
      have hlength : g.room = (g.stranger source).length := by omega
      have hcrowded : g.room < (g.strangers source target).length := by
        rw [hends, List.length_append, List.length_singleton]
        omega
      have htake : (g.strangers source target).take g.room = g.stranger source := by
        rw [hends, hlength, List.take_left]
      have hadding : Adding g source target name _ := .crowded hcrowded
      rw [htake] at hadding
      rw [he]
      exact hadding
  · have hcrowded : g.room < (g.strangers source target).length := by
      rw [hends, hs, hfull, List.length_append, List.length_singleton]
      omega
    have hadding : Adding g source target name _ := .crowded hcrowded
    rw [hfull] at hadding
    rw [he]
    exact hadding

/-- What is left of an edge that was refused. -/
structure Refused (g g' : Network α π) (source target : Int64) (name : String) (full : Full) : Prop where
  /-- The nodes are full if there is no room for both ends, -/
  nodes : full = .nodes ↔ g.room < (g.strangers source target).length
  /-- and the classes are if there is no room for one that is not known. -/
  classes : full = .classes → g.classNumbers[name]? = none ∧ ClassId.invalid.index ≤ g.classes.size
  /-- The ends that were strangers stay behind, as far as there is room, -/
  left : g' = g.withStrangers ((g.strangers source target).take g.room)
  /-- without edges. -/
  out : ∀ v, g'.out v = g.out v
  known : ∀ id, id ∉ g.strangers source target → g'.lookup id = g.lookup id
  frame : ∃ nodes numbers, g' = { g with nodes, numbers }
  /-- Nothing is left if both ends were known or not even the first stranger had room. -/
  unchanged_iff : g' = g ↔ g.strangers source target = [] ∨ g.room = 0

theorem addEdge_refused {full : Full}
    (h : (g.addEdge source target length travel name).1 = .error full) :
    Refused g (g.addEdge source target length travel name).2 source target name full := by
  have hleft : (g.addEdge source target length travel name).2 =
      g.withStrangers ((g.strangers source target).take g.room) ∧
      (full = .nodes ↔ g.room < (g.strangers source target).length) ∧
      (full = .classes → g.classNumbers[name]? = none ∧ ClassId.invalid.index ≤ g.classes.size) := by
    have hadding := g.addEdge_spec source target length travel name
    generalize g.addEdge source target length travel name = result at h hadding
    cases hadding with
    | crowded hroom =>
      cases h
      exact ⟨rfl, iff_of_true rfl hroom, nofun⟩
    | unnamed hroom hunknown hfull =>
      cases h
      rw [List.take_of_length_le hroom]
      exact ⟨rfl, iff_of_false nofun (Nat.not_lt.2 hroom), fun _ => ⟨hunknown, hfull⟩⟩
    | added fresh g' _ _ => cases h
  obtain ⟨hleft, hnodes, hclasses⟩ := hleft
  rw [hleft]
  refine ⟨hnodes, hclasses, rfl, out_withStrangers g _, fun id hid => ?_, withStrangers_frame g _, ?_⟩
  · exact lookup_withStrangers_of_not_mem fun hmem => hid (List.mem_of_mem_take hmem)
  · constructor
    · intro hsame
      have hcount := congrArg nodeCount hsame
      rw [nodeCount_withStrangers, List.length_take] at hcount
      rw [← List.length_eq_zero_iff]
      omega
    · rintro (hnone | hroom)
      · rw [hnone, List.take_nil]
        rfl
      · rw [hroom, List.take_zero]
        rfl

/-- A node that is refused leaves the network as it was. An edge that is refused leaves behind those of its
ends that were strangers and had room, and nothing else. -/
theorem refusals (g : Network α π) :
    (∀ id p full, (g.place id p).1 = .error full → (g.place id p).2 = g) ∧
    (∀ id full, (g.ensure id).1 = .error full → (g.ensure id).2 = g) ∧
    ∀ source target length travel name full,
      (g.addEdge source target length travel name).1 = .error full →
      Refused g (g.addEdge source target length travel name).2 source target name full := by
  refine ⟨fun id p full => place_error, fun id full h => ?_, fun _ _ _ _ _ _ => addEdge_refused⟩
  rcases g.ensure_spec id with ⟨-, v, he⟩ | ⟨-, -, he⟩
  · rw [he] at h
    cases h
  · rw [he]

end Edges

/-! ## Full networks -/

section Full
variable [Quantity α]

theorem lookup_empty (id : Int64) : (Network.empty : Network α π).lookup id = none := by
  simp [lookup, Network.empty]

theorem nodeCount_empty : (Network.empty : Network α π).nodeCount = 0 := rfl

/-- A name of a class. -/
def nameOf (k : Nat) : String := String.ofList (List.replicate k 'c')

theorem nameOf_injective {j k : Nat} (h : nameOf j = nameOf k) : j = k := by
  have hlength := congrArg (fun s => s.toList.length) h
  simpa [nameOf] using hlength

/-- A network of two nodes in which some classes have names. -/
structure Named (k : Nat) (g : Network α π) : Prop where
  grown : g.Grown
  one : g.lookup 1 = some ⟨0⟩
  two : g.lookup 2 = some ⟨1⟩
  others : ∀ id, 1 ≠ id → 2 ≠ id → g.lookup id = none
  count : g.nodeCount = 2
  size : g.classes.size = k
  free : ∀ j, k ≤ j → g.classNumbers[nameOf j]? = none

theorem exists_named_zero : ∃ g : Network α π, Named 0 g := by
  have hfirst : (Network.empty : Network α π).ensure 1 = (.ok ⟨0⟩, Network.empty.withNode 1 none) := by
    simp [ensure, lookup_empty, push_eq, nodeCount_empty, NodeId.invalid]
  have hsecond : ((Network.empty : Network α π).withNode 1 none).ensure 2 =
      (.ok ⟨1⟩, (Network.empty.withNode 1 none).withNode 2 none) := by
    simp [ensure, lookup_withNode, lookup_empty, push_eq, nodeCount_empty, NodeId.invalid]
  have hgrown : ((Network.empty : Network α π).ensure 1).2.ensure 2 |>.2.Grown :=
    .ensure 2 (.ensure 1 .empty)
  rw [hfirst, hsecond] at hgrown
  refine ⟨_, hgrown, ?_, ?_, fun id h1 h2 => ?_, ?_, rfl, fun j _ => ?_⟩
  · simp [lookup_withNode, nodeCount_empty]
  · simp [lookup_withNode, nodeCount_empty]
  · rw [lookup_withNode, if_neg h2, lookup_withNode, if_neg h1, lookup_empty]
  · rw [nodeCount_withNode, nodeCount_withNode, nodeCount_empty]
  · simp [withNode, Network.empty]

/-- An edge of another class. -/
theorem Named.addEdge {k : Nat} {g : Network α π} (h : Named k g) (hroom : k < ClassId.invalid.index)
    (length travel : α) : Named (k + 1) (g.addEdge 1 2 length travel (nameOf k)).2 := by
  have hintern : g.intern (nameOf k) = (.ok ⟨k⟩, g.withClass (nameOf k)) := by
    simp [intern, h.free k (Nat.le_refl k), h.size, hroom, withClass]
  have hadded : (g.addEdge 1 2 length travel (nameOf k)).2 =
      (g.withClass (nameOf k)).withRoad ⟨0⟩ ⟨⟨1⟩, length, travel, ⟨k⟩⟩ := by
    simp only [Network.addEdge, ensure, h.one, h.two, hintern]
    rfl
  refine ⟨.addEdge 1 2 _ _ _ h.grown, ?_, ?_, ?_, ?_, ?_, ?_⟩
  · rw [hadded, lookup_withRoad, lookup_withClass, h.one]
  · rw [hadded, lookup_withRoad, lookup_withClass, h.two]
  · intro id h1 h2
    rw [hadded, lookup_withRoad, lookup_withClass, h.others id h1 h2]
  · rw [hadded, nodeCount_withRoad]
    exact h.count
  · rw [hadded, classes_withRoad, withClass, Array.size_push, h.size]
  · intro j hj
    have hne : nameOf k ≠ nameOf j := fun heq => by
      have hkj := nameOf_injective heq
      omega
    rw [hadded, classNumbers_withRoad, classNumbers_withClass, if_neg hne, h.free j (by omega)]

theorem exists_named {k : Nat} (hk : k ≤ ClassId.invalid.index) : ∃ g : Network α π, Named k g := by
  induction k with
  | zero => exact exists_named_zero
  | succ k ih =>
    obtain ⟨g, h⟩ := ih (by omega)
    exact ⟨_, h.addEdge hk Quantity.one Quantity.one⟩

/-- So many nodes as there is room for. -/
structure Peopled (k : Nat) (g : Network α π) : Prop where
  grown : g.Grown
  count : g.nodeCount = k
  free : ∀ j, k ≤ j → j < 2 ^ 63 → g.lookup (Int64.ofNat j) = none

/-- Another node. -/
theorem Peopled.ensure {k : Nat} {g : Network α π} (h : Peopled k g) (hroom : k < NodeId.invalid.index) :
    Peopled (k + 1) (g.ensure (Int64.ofNat k)).2 := by
  have hbound : NodeId.invalid.index < 2 ^ 63 := by decide
  have hunknown := h.free k (Nat.le_refl k) (by omega)
  have hensure : g.ensure (Int64.ofNat k) = (.ok ⟨k⟩, g.withNode (Int64.ofNat k) none) := by
    simp [Network.ensure, hunknown, push_eq, h.count, hroom]
  refine ⟨h.grown.ensure (Int64.ofNat k), by rw [hensure, nodeCount_withNode, h.count],
    fun j hj hlt => ?_⟩
  have hne : Int64.ofNat k ≠ Int64.ofNat j := by
    intro heq
    have hint := congrArg Int64.toInt heq
    rw [Int64.toInt_ofNat_of_lt (by omega), Int64.toInt_ofNat_of_lt hlt] at hint
    omega
  rw [hensure, lookup_withNode, if_neg hne, h.free j (by omega) hlt]

theorem exists_peopled {k : Nat} (hk : k ≤ NodeId.invalid.index) :
    ∃ g : Network α π, Peopled k g := by
  induction k with
  | zero => exact ⟨Network.empty, .empty, nodeCount_empty, fun j _ _ => lookup_empty _⟩
  | succ k ih =>
    obtain ⟨g, h⟩ := ih (by omega)
    exact ⟨_, h.ensure hk⟩

/-- The edge that a network without room for its class refuses. -/
theorem Named.addEdge_error {g : Network α π} (h : Named ClassId.invalid.index g) (length travel : α) :
    (g.addEdge 10 11 length travel (nameOf ClassId.invalid.index)).1 = .error .classes := by
  have hadding := g.addEdge_spec 10 11 length travel (nameOf ClassId.invalid.index)
  have hunknown := h.free _ (Nat.le_refl _)
  have hstrangers : g.strangers 10 11 = [10, 11] := by
    simp [strangers, stranger, h.others 10 (by decide) (by decide), h.others 11 (by decide) (by decide)]
  have hroom : 2 ≤ g.room := by
    rw [room, h.count]
    decide
  generalize g.addEdge 10 11 length travel (nameOf ClassId.invalid.index) = result at hadding ⊢
  cases hadding with
  | crowded hcrowded =>
    rw [hstrangers] at hcrowded
    exact absurd hroom (Nat.not_le.2 hcrowded)
  | unnamed _ _ _ => rfl
  | added _ _ _ hnamed =>
    rcases hnamed with hknown | hroom
    · exact absurd hunknown hknown
    · exact absurd h.size (Nat.ne_of_lt hroom)

end Full

/-- A network that is full of nodes takes no other one, and one that is full of classes takes no edge of
another class. -/
theorem refusals_full : ∃ (g g' : Network Float Nat) (id : Int64) (name : String), g.Grown ∧ g'.Grown ∧
    ((g.place id 0).1 = .error .nodes ∧ (g.place id 0).2 = g) ∧
    ((g.ensure id).1 = .error .nodes ∧ (g.ensure id).2 = g) ∧
    (g'.addEdge 10 11 1 1 name).1 = .error .classes ∧
    Refused g' (g'.addEdge 10 11 1 1 name).2 10 11 name .classes := by
  obtain ⟨g, hg⟩ := exists_peopled (α := Float) (π := Nat) (Nat.le_refl NodeId.invalid.index)
  obtain ⟨g', hg'⟩ := exists_named (α := Float) (π := Nat) (Nat.le_refl ClassId.invalid.index)
  have hunknown := hg.free _ (Nat.le_refl _) (by decide)
  have hplace : (g.place (Int64.ofNat NodeId.invalid.index) 0).1 = .error .nodes := by
    simp [place, hunknown, push_eq, hg.count]
  have hensure : (g.ensure (Int64.ofNat NodeId.invalid.index)).1 = .error .nodes := by
    simp [ensure, hunknown, push_eq, hg.count]
  have hedge := hg'.addEdge_error 1 1
  exact ⟨g, g', _, _, hg.grown, hg'.grown, ⟨hplace, (refusals g).1 _ _ _ hplace⟩,
    ⟨hensure, (refusals g).2.1 _ _ hensure⟩, hedge, (refusals g').2.2 _ _ _ _ _ _ hedge⟩

/-- An edge that is refused may change the network. -/
theorem not_all_unchanged : ¬ ∀ g : Network Float Nat, g.Grown →
    ∀ (source target : Int64) (length travel : Float) (name : String) (full : Full),
      (g.addEdge source target length travel name).1 = .error full →
      (g.addEdge source target length travel name).2 = g := by
  intro hall
  obtain ⟨g, hg⟩ := exists_named (α := Float) (π := Nat) (Nat.le_refl ClassId.invalid.index)
  have hedge := hg.addEdge_error 1 1
  have hsame := hall g hg.grown 10 11 1 1 _ .classes hedge
  have hroom : g.room ≠ 0 := by
    rw [room, hg.count]
    decide
  have hstranger : g.strangers 10 11 ≠ [] := by
    simp [strangers, stranger, hg.others 10 (by decide) (by decide)]
  rcases (addEdge_refused hedge).unchanged_iff.1 hsame with hnone | hnone
  · exact hstranger hnone
  · exact hroom hnone

end RoadRouting.Network
