import RoadRouting.Proofs.Network.Tables

/-!
# Edits of nodes

Where a node is known already, to give it a position or to put an edge at it is to edit it (`Edit`). A later
edit of a node replaces an earlier one, or the two do not touch each other; so edits that are made once more, in
the same order, leave the nodes as they were (`runAll_runAll`), whatever they replaced in between.
-/

namespace RoadRouting.Network
set_option autoImplicit false

variable {α π : Type}

/-- What is done to a node that is known: it gets a position, or an edge is put at it. -/
inductive Edit (α π : Type) where
  | move (v : NodeId) (p : π)
  | join (u : NodeId) (e : Edge α)

namespace Edit

/-- The node that is edited. -/
def place : Edit α π → NodeId
  | .move v _ => v
  | .join u _ => u

/-- What becomes of the node. -/
def onNode : Edit α π → Node α π → Node α π
  | .move _ p, n => { n with position := some p }
  | .join _ e, n => { n with out := putEdge e n.out }

/-- What becomes of the nodes. -/
def run (e : Edit α π) (nodes : Array (Node α π)) : Array (Node α π) :=
  nodes.modify e.place.index e.onNode

/-- The node has an edge that the edit replaces, if it puts one. -/
def Fits (n : Node α π) : Edit α π → Prop
  | .move _ _ => True
  | .join _ e => e.target ∈ n.out.map (·.target)

/-- Edits that are made one after the other. -/
def runAll (es : List (Edit α π)) (nodes : Array (Node α π)) : Array (Node α π) :=
  es.foldl (fun nodes e => e.run nodes) nodes

/-- What becomes of a node by edits of it. -/
def onNodeAll (es : List (Edit α π)) (n : Node α π) : Node α π := es.foldl (fun n e => e.onNode n) n

end Edit

/-! ## Edges that are put twice -/

section PutEdge
variable {e f : Edge α} {es : List (Edge α)}

/-- The later of two edges to a node remains, where the earlier one was put. -/
theorem putEdge_putEdge (h : f.target = e.target) : putEdge f (putEdge e es) = putEdge f es := by
  induction es with
  | nil => simp [putEdge, h]
  | cons x rest ih =>
    by_cases hx : x.target = e.target
    · simp [putEdge, hx, h]
    · have hxf : x.target ≠ f.target := by rwa [h]
      simp only [putEdge, if_neg hx, if_neg hxf, ih]

/-- Edges to different nodes do not touch each other, where the later one only replaces one. -/
theorem putEdge_comm (h : f.target ≠ e.target) (hf : f.target ∈ es.map (·.target)) :
    putEdge f (putEdge e es) = putEdge e (putEdge f es) := by
  induction es with
  | nil => cases hf
  | cons x rest ih =>
    by_cases hx : x.target = e.target
    · have hxf : x.target ≠ f.target := fun hxf => h (hxf.symm.trans hx)
      simp only [putEdge, if_pos hx, if_neg hxf, if_neg h.symm]
    · by_cases hxf : x.target = f.target
      · simp only [putEdge, if_neg hx, if_pos hxf, if_neg h]
      · have hrest : f.target ∈ rest.map (·.target) := by
          rw [List.map_cons, List.mem_cons] at hf
          exact hf.resolve_left (Ne.symm hxf)
        simp only [putEdge, if_neg hx, if_neg hxf, ih hrest]

theorem mem_targets_putEdge {v : NodeId} :
    v ∈ (putEdge e es).map (·.target) ↔ v = e.target ∨ v ∈ es.map (·.target) := by
  rw [targets_putEdge]
  split
  · rename_i he
    constructor
    · exact .inr
    · rintro (rfl | hv)
      · exact he
      · exact hv
  · rw [List.mem_append, List.mem_singleton, or_comm]

end PutEdge

/-! ## Edits that are made twice -/

namespace Edit
variable {e f : Edit α π} {es : List (Edit α π)} {n : Node α π}

theorem fits_onNode (e : Edit α π) (n : Node α π) : e.Fits (e.onNode n) := by
  cases e with
  | move v p => trivial
  | join u e => exact mem_targets_putEdge.2 (.inl rfl)

theorem Fits.onNode (h : f.Fits n) (e : Edit α π) : f.Fits (e.onNode n) := by
  cases f with
  | move v p => trivial
  | join u x =>
    cases e with
    | move v p => exact h
    | join v e => exact mem_targets_putEdge.2 (.inr h)

theorem onNode_onNode_self (e : Edit α π) (n : Node α π) : e.onNode (e.onNode n) = e.onNode n := by
  cases e with
  | move v p => rfl
  | join u e => simp only [onNode, putEdge_putEdge]

/-- An edit replaces the one before it, or may as well be made before it. -/
theorem Fits.replaces_or_passes (h : f.Fits n) (e : Edit α π) :
    f.onNode (e.onNode n) = f.onNode n ∨ f.onNode (e.onNode n) = e.onNode (f.onNode n) := by
  cases f with
  | move v p =>
    cases e with
    | move w q => exact .inl rfl
    | join u e => exact .inr rfl
  | join u x =>
    cases e with
    | move v p => exact .inr rfl
    | join v e =>
      by_cases hx : x.target = e.target
      · exact .inl (by simp only [Edit.onNode, putEdge_putEdge hx])
      · exact .inr (by simp only [Edit.onNode, putEdge_comm hx h])

theorem onNodeAll_cons (e : Edit α π) (es : List (Edit α π)) (n : Node α π) :
    onNodeAll (e :: es) n = onNodeAll es (e.onNode n) := rfl

theorem onNodeAll_snoc (es : List (Edit α π)) (e : Edit α π) (n : Node α π) :
    onNodeAll (es ++ [e]) n = e.onNode (onNodeAll es n) := List.foldl_append

theorem fits_onNodeAll (es : List (Edit α π)) (n : Node α π) : ∀ f ∈ es, f.Fits (onNodeAll es n) := by
  induction es using List.reverseRecOn with
  | nil => nofun
  | append_singleton es e ih =>
    intro f hf
    rw [onNodeAll_snoc]
    rcases List.mem_append.1 hf with hf | hf
    · exact (ih f hf).onNode e
    · rw [List.mem_singleton.1 hf]
      exact e.fits_onNode _

/-- An edit that comes last need not have been made first as well. -/
theorem onNode_onNodeAll_onNode (hfits : ∀ f ∈ es, f.Fits n) (e : Edit α π) :
    e.onNode (onNodeAll es (e.onNode n)) = e.onNode (onNodeAll es n) := by
  induction es generalizing n with
  | nil => exact e.onNode_onNode_self n
  | cons f rest ih =>
    obtain ⟨hf, hrest⟩ := List.forall_mem_cons.1 hfits
    rw [onNodeAll_cons, onNodeAll_cons]
    rcases hf.replaces_or_passes e with hreplaces | hpasses
    · rw [hreplaces]
    · rw [hpasses]
      exact ih fun x hx => (hrest x hx).onNode f

theorem onNodeAll_onNodeAll (es : List (Edit α π)) (n : Node α π) :
    onNodeAll es (onNodeAll es n) = onNodeAll es n := by
  induction es using List.reverseRecOn with
  | nil => rfl
  | append_singleton es e ih =>
    calc onNodeAll (es ++ [e]) (onNodeAll (es ++ [e]) n)
        = e.onNode (onNodeAll es (e.onNode (onNodeAll es n))) := by rw [onNodeAll_snoc, onNodeAll_snoc]
      _ = e.onNode (onNodeAll es (onNodeAll es n)) := onNode_onNodeAll_onNode (fits_onNodeAll es n) e
      _ = onNodeAll (es ++ [e]) n := by rw [ih, onNodeAll_snoc]

/-! ## Edits of many nodes -/

variable {nodes fresh : Array (Node α π)}

theorem runAll_cons (e : Edit α π) (es : List (Edit α π)) (nodes : Array (Node α π)) :
    runAll (e :: es) nodes = runAll es (e.run nodes) := rfl

@[simp] theorem size_run (e : Edit α π) (nodes : Array (Node α π)) : (e.run nodes).size = nodes.size :=
  Array.size_modify

/-- Each node is edited for itself. -/
theorem getElem?_runAll (es : List (Edit α π)) (nodes : Array (Node α π)) (i : Nat) :
    (runAll es nodes)[i]? = nodes[i]?.map (onNodeAll (es.filter fun e => e.place.index = i)) := by
  induction es generalizing nodes with
  | nil => exact Option.map_id'.symm
  | cons e rest ih =>
    rw [runAll_cons, ih, run, Array.getElem?_modify]
    by_cases hi : e.place.index = i
    · rw [if_pos hi, Option.map_map, List.filter_cons_of_pos (by simpa using hi)]
      rfl
    · rw [if_neg hi, List.filter_cons_of_neg (by simpa using hi)]

/-- Edits that are made once more change nothing. -/
theorem runAll_runAll (es : List (Edit α π)) (nodes : Array (Node α π)) :
    runAll es (runAll es nodes) = runAll es nodes := by
  refine Array.ext_getElem? fun i => ?_
  rw [getElem?_runAll, getElem?_runAll, Option.map_map]
  congr 1
  funext n
  exact onNodeAll_onNodeAll _ n

/-- Nodes that come later are not edited. -/
theorem run_append (e : Edit α π) (h : e.place.index < nodes.size) :
    e.run (nodes ++ fresh) = e.run nodes ++ fresh := by
  refine Array.ext_getElem? fun i => ?_
  rw [run, Array.getElem?_modify, Array.getElem?_append, Array.getElem?_append, size_run, run,
    Array.getElem?_modify]
  by_cases hi : e.place.index = i
  · rw [if_pos hi, if_pos hi, if_pos (hi ▸ h), if_pos (hi ▸ h)]
  · rw [if_neg hi, if_neg hi]

end Edit

/-! ## Edits that bring nothing new -/

section Settled
variable [Quantity α] {g g' : Network α π} {e : Edit α π}

/-- An edit brings nothing new: the node has a position, or it has an edge to the same node and the new one is
no faster than the fastest edge. -/
def Edit.Settled (g : Network α π) : Edit α π → Prop
  | .move v _ => (g.position? v).isSome
  | .join u e => (g.edge? u e.target).isSome ∧
      (0 < e.length → ¬ g.fastest < speedOf e.length e.travel)

/-- It brings nothing new later on either. -/
theorem Edit.Settled.updates [LawfulCost α] (h : e.Settled g) (hu : Updates g g') : e.Settled g' := by
  induction hu with
  | refl => exact h
  | tail _ hu ih =>
    cases e with
    | move v p => exact hu.position? ih
    | join u e =>
      obtain ⟨hedge, hslow⟩ := ih
      refine ⟨hu.edge? hedge, fun hpos hbelow => ?_⟩
      rcases hu.fastest with hsame | hraised
      · rw [hsame] at hbelow
        exact hslow hpos hbelow
      · exact hslow hpos (LawfulCost.lt_trans hraised hbelow)

theorem noteSpeed_eq {length travel : α} (h : 0 < length → ¬ g.fastest < speedOf length travel) :
    g.noteSpeed length travel = g := by
  unfold noteSpeed
  split
  · rename_i hpos
    simp only [if_neg (h hpos)]
  · rfl

theorem place_settled {id : Int64} {v : NodeId} {p : π} (hv : g.lookup id = some v)
    (h : (Edit.move v p : Edit α π).Settled g) :
    g.place id p = (.ok false, { g with nodes := (Edit.move v p).run g.nodes }) := by
  have hold : (g.position? v).isNone = false := by
    rw [Option.isNone_eq_false_iff]
    exact h
  simp only [place, hv, hold]
  rfl

theorem addEdge_settled {source target : Int64} {u v : NodeId} {c : ClassId} {length travel : α}
    {name : String} (hu : g.lookup source = some u) (hv : g.lookup target = some v)
    (hc : g.classNumbers[name]? = some c)
    (h : (Edit.join u ⟨v, length, travel, c⟩ : Edit α π).Settled g) :
    g.addEdge source target length travel name =
      (.ok false, { g with nodes := (Edit.join u ⟨v, length, travel, c⟩).run g.nodes }) := by
  obtain ⟨hedge, hslow⟩ := h
  have hold : (g.edge? u v).isNone = false := by
    rw [Option.isNone_eq_false_iff]
    exact hedge
  simp only [addEdge, ensure, intern, hu, hv, hc, noteSpeed_eq hslow, link, hold, Bool.false_eq_true, if_false]
  rfl

/-- A class keeps its number. -/
theorem classNumbers_updates (hu : Updates g g') {name : String} {c : ClassId}
    (h : g.classNumbers[name]? = some c) : g'.classNumbers[name]? = some c := by
  induction hu with
  | refl => exact h
  | tail _ hu ih =>
    cases hu with
    | node id p _ _ => exact ih
    | position v p => exact ih
    | name n hn _ =>
      rw [classNumbers_withClass, if_neg, ih]
      rintro rfl
      rw [ih] at hn
      cases hn
    | road u e _ _ => rwa [classNumbers_withRoad]

omit [Quantity α] in
/-- A node that comes with a position is one that gets it. -/
theorem nodes_withNode_some (g : Network α π) (id : Int64) (p : π) : (g.withNode id (some p)).nodes =
    (Edit.move ⟨g.nodeCount⟩ p).run (g.nodes ++ #[⟨id, none, []⟩]) := by
  have hplace : (Edit.move ⟨g.nodeCount⟩ p : Edit α π).place.index = g.nodes.size := rfl
  refine Array.ext_getElem? fun i => ?_
  rw [Edit.run, hplace, Array.getElem?_modify, withNode, ← Array.push_eq_append, Array.getElem?_push,
    Array.getElem?_push]
  by_cases hi : i = g.nodes.size
  · rw [if_pos hi, if_pos hi, if_pos hi.symm]
    rfl
  · rw [if_neg hi, if_neg hi, if_neg (Ne.symm hi)]

omit [Quantity α] in
theorem exists_nodes_ensure (g : Network α π) (id : Int64) :
    ∃ fresh, (g.ensure id).2.nodes = g.nodes ++ fresh := by
  rcases g.ensure_cases id with ⟨v, -, he⟩ | ⟨-, -, he⟩ | he
  · rw [he]
    exact ⟨#[], Array.append_empty.symm⟩
  · rw [he]
    exact ⟨#[⟨id, none, []⟩], Array.push_eq_append⟩
  · rw [he]
    exact ⟨#[], Array.append_empty.symm⟩

omit [Quantity α] in
theorem nodes_intern (g : Network α π) (name : String) : (g.intern name).2.nodes = g.nodes := by
  obtain ⟨classes, numbers, h⟩ := g.intern_frame name
  rw [h]

end Settled
end RoadRouting.Network
