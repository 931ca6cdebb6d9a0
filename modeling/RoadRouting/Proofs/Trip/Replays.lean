import RoadRouting.Proofs.Network.Edits
import RoadRouting.Proofs.Trip.Reports

/-!
# Merging again

Once a change has been made it has nothing new for the network (`Change.Makes.known`), and as long as the
network only grows it never has (`Change.Known.updates`). Made again it edits one node, counts for nothing and
touches nothing else (`Change.Known.apply`). So changes that are made again all together edit the nodes as
they did before, and leave the network as it is (`applyAll_again`). A partition may be merged again, or from the
start after its merging was broken off anywhere, and the network is the same (`merging_again`).
-/

namespace RoadRouting.Trip
set_option autoImplicit false
open Dataset (Partition)
open Network (Edit Full LawfulCost Quantity Updates)

variable {α π : Type}

namespace Change

/-- What a change is to the nodes of a network in which all that it names has numbers. -/
def edit? (g : Network α π) : Change α π → Option (Edit α π)
  | .place id p => (g.lookup id).map fun v => .move v p
  | .connect a b length travel name =>
    (g.lookup a).bind fun u => (g.lookup b).bind fun v =>
      (g.classNumbers[name]?).map fun c => .join u ⟨v, length, travel, c⟩

/-- A change has nothing new for a network: it is an edit that brings nothing new. -/
structure Known [Quantity α] (g : Network α π) (c : Change α π) (e : Edit α π) : Prop where
  edit : c.edit? g = some e
  settled : e.Settled g

end Change

section Again
variable [Quantity α] [LawfulCost α] {g g' : Network α π} {c : Change α π} {e : Edit α π}
  {cs ds : List (Change α π)} {es : List (Edit α π)} {t t' : Tally}

/-! ## Changes that are known -/

omit [LawfulCost α] in
theorem Change.edit?_updates (h : c.edit? g = some e) (hu : Updates g g') : c.edit? g' = some e := by
  cases c with
  | place id p =>
    obtain ⟨v, hv, rfl⟩ := Option.map_eq_some_iff.1 h
    simp only [Change.edit?, Network.lookup_updates hu hv, Option.map_some]
  | connect a b length travel name =>
    obtain ⟨u, ha, h⟩ := Option.bind_eq_some_iff.1 h
    obtain ⟨v, hb, h⟩ := Option.bind_eq_some_iff.1 h
    obtain ⟨k, hk, rfl⟩ := Option.map_eq_some_iff.1 h
    simp only [Change.edit?, Network.lookup_updates hu ha, Network.lookup_updates hu hb,
      Network.classNumbers_updates hu hk, Option.bind_some, Option.map_some]

theorem Change.Known.updates (h : Change.Known g c e) (hu : Updates g g') : Change.Known g' c e :=
  ⟨Change.edit?_updates h.edit hu, h.settled.updates hu⟩

omit [LawfulCost α] in
/-- A change that has nothing new edits a node, and counts for nothing. -/
theorem Change.Known.apply (h : Change.Known g c e) (t : Tally) :
    c.apply g t = (.ok t, { g with nodes := e.run g.nodes }) := by
  obtain ⟨hedit, hsettled⟩ := h
  cases c with
  | place id p =>
    obtain ⟨v, hv, rfl⟩ := Option.map_eq_some_iff.1 hedit
    simp only [Change.apply, Network.place_settled hv hsettled, Bool.false_eq_true, if_false]
  | connect a b length travel name =>
    obtain ⟨u, ha, hedit⟩ := Option.bind_eq_some_iff.1 hedit
    obtain ⟨v, hb, hedit⟩ := Option.bind_eq_some_iff.1 hedit
    obtain ⟨k, hk, rfl⟩ := Option.map_eq_some_iff.1 hedit
    simp only [Change.apply, Network.addEdge_settled ha hb hk hsettled, Bool.false_eq_true, if_false]

/-! ## Changes that were made -/

omit [LawfulCost α] in
theorem Change.Makes.updates (hg : g.Grown) (h : c.Makes g g') : Updates g g' := by
  rcases h.cases with ⟨id, p, fresh, -, he⟩ | ⟨a, b, length, travel, name, fresh, -, he⟩
  · have hu := g.place_updates id p
    rwa [he] at hu
  · have hu := Network.updates_of_joins
      (Network.addEdge_joins hg.wellFormed a b length travel name)
    rwa [he] at hu

/-- A change was made: it has nothing new any more, and it edited a node, after some new ones had come. -/
structure Change.Edited (g g' : Network α π) (fresh : Array (Network.Node α π)) (c : Change α π)
    (e : Edit α π) : Prop where
  known : Change.Known g' c e
  there : e.place.index < (g.nodes ++ fresh).size
  nodes : g'.nodes = e.run (g.nodes ++ fresh)

omit [LawfulCost α] in
theorem Change.edited_place (hg : g.Grown) {id : Int64} {p : π} {new : Bool}
    (h : g.place id p = (.ok new, g')) :
    ∃ fresh e, Change.Edited g g' fresh (.place id p) e := by
  have hok : (g.place id p).1 = .ok new := by rw [h]
  have hsnd : (g.place id p).2 = g' := by rw [h]
  rcases Network.place_ok hok with ⟨v, hv, he⟩ | ⟨-, -, he⟩
  · obtain rfl : g' = g.moved v p := hsnd.symm.trans he
    have hlt := hg.wellFormed.index_lt hv
    refine ⟨#[], .move v p, ⟨?_, ?_⟩, ?_, ?_⟩
    · simp [Change.edit?, hv]
    · simp [Edit.Settled, Network.position?_moved hlt]
    · rw [Array.append_empty]
      exact hlt
    · rw [Array.append_empty]
      rfl
  · obtain rfl : g' = g.withNode id (some p) := hsnd.symm.trans he
    refine ⟨#[⟨id, none, []⟩], .move ⟨g.nodeCount⟩ p, ⟨?_, ?_⟩, ?_, ?_⟩
    · simp [Change.edit?, Network.lookup_withNode]
    · simp [Edit.Settled, Network.position?_withNode]
    · simp [Edit.place, Network.nodeCount]
    · exact g.nodes_withNode_some id p

theorem Change.edited_connect (hg : g.Grown) {a b : Int64} {length travel : α} {name : String} {new : Bool}
    (h : g.addEdge a b length travel name = (.ok new, g')) :
    ∃ fresh e, Change.Edited g g' fresh (.connect a b length travel name) e := by
  obtain ⟨h1, h2, h3, rfl⟩ := Network.addEdge_added h
  rename_i u v k g₁ g₂ g₃
  have hs := Network.Added.settled hg.wellFormed hg.classified h1 h2 h3
  obtain ⟨fresh, hfresh⟩ : ∃ fresh, g₃.nodes = g.nodes ++ fresh := by
    obtain ⟨first, hfirst⟩ := g.exists_nodes_ensure a
    obtain ⟨second, hsecond⟩ := g₁.exists_nodes_ensure b
    have hclass := g₂.nodes_intern name
    rw [h1] at hfirst
    rw [h2] at hsecond
    rw [h3] at hclass
    refine ⟨first ++ second, ?_⟩
    calc g₃.nodes = g₂.nodes := hclass
      _ = g₁.nodes ++ second := hsecond
      _ = g.nodes ++ (first ++ second) := by rw [← Array.append_assoc, ← hfirst]
  have hlt := hs.wellFormed.index_lt hs.source
  refine ⟨fresh, .join u ⟨v, length, travel, k⟩, ⟨?_, ?_, fun hpos => ?_⟩, ?_, ?_⟩
  · simp [Change.edit?, hs.source, hs.target, Network.classNumbers_withRoad, hs.named]
  · rw [Network.edge?_withRoad hlt, if_pos ⟨rfl, rfl⟩]
    rfl
  · rw [Network.fastest_withRoad]
    rcases g₃.fastest_noteSpeed_cases length travel with ⟨hsame, hslow⟩ | ⟨hraised, -⟩
    · rw [hsame]
      exact hslow hpos
    · rw [hraised]
      exact LawfulCost.lt_irrefl _
  · rw [← hfresh]
    exact hlt
  · rw [← hfresh]
    exact Network.nodes_withRoad

theorem Change.Makes.edited (hg : g.Grown) (h : c.Makes g g') :
    ∃ fresh e, Change.Edited g g' fresh c e := by
  rcases h.cases with ⟨id, p, new, rfl, he⟩ | ⟨a, b, length, travel, name, new, rfl, he⟩
  · exact Change.edited_place hg he
  · exact Change.edited_connect hg he

omit [LawfulCost α] in
theorem MakesAll.updates (hg : g.Grown) (h : MakesAll cs g g') : Updates g g' := by
  induction h with
  | nil => exact .refl
  | cons hc _ ih => exact (hc.updates hg).trans (ih (hc.grown hg))

/-- After changes that were made none of them has anything new, and the nodes are those from before and the
new ones, edited. -/
theorem MakesAll.edited (hg : g.Grown) (h : MakesAll cs g g') :
    ∃ fresh es, List.Forall₂ (Change.Known g') cs es ∧ g'.nodes = Edit.runAll es (g.nodes ++ fresh) := by
  induction h with
  | nil => exact ⟨#[], [], .nil, Array.append_empty.symm⟩
  | @cons c cs g g₁ g' hc hcs ih =>
    have hg₁ := hc.grown hg
    obtain ⟨first, e, hknown, hthere, hfirst⟩ := hc.edited hg
    obtain ⟨rest, es, hall, hrest⟩ := ih hg₁
    refine ⟨first ++ rest, e :: es, .cons (hknown.updates (hcs.updates hg₁)) hall, ?_⟩
    rw [hrest, hfirst, Edit.runAll_cons, ← Array.append_assoc, Edit.run_append e hthere]

/-! ## Made once more -/

/-- Changes that have nothing new edit the nodes, and count for nothing. -/
theorem applyAll_known (hg : g.Grown) (h : List.Forall₂ (Change.Known g) cs es) (t : Tally) :
    applyAll cs g t = (.ok t, { g with nodes := Edit.runAll es g.nodes }) := by
  induction cs generalizing g es with
  | nil =>
    cases h
    rfl
  | cons c rest ih =>
    obtain ⟨e, es, hc, hrest, rfl⟩ := List.forall₂_cons_left_iff.1 h
    have happly := hc.apply t
    have hmade : c.Makes g { g with nodes := e.run g.nodes } := ⟨t, t, happly⟩
    have hstill := hrest.imp fun d f hd => hd.updates (hmade.updates hg)
    unfold applyAll
    rw [happly]
    exact ih (hmade.grown hg) hstill

/-- Changes that were made and are made once more leave the network as it is, and count for nothing. -/
theorem applyAll_again (hg : g.Grown) (h : applyAll cs g t = (.ok t', g')) (s : Tally) :
    applyAll cs g' s = (.ok s, g') := by
  have hmade := makesAll_of_applyAll h
  obtain ⟨fresh, es, hknown, hnodes⟩ := hmade.edited hg
  have hsame : Edit.runAll es g'.nodes = g'.nodes := by
    rw [hnodes, Edit.runAll_runAll]
  rw [applyAll_known (hmade.grown hg) hknown s, hsame]

/-! ## Broken off and begun again -/

omit [LawfulCost α] in
/-- Whether a change can be made does not depend on what was counted before. -/
theorem Change.Makes.apply (h : c.Makes g g') (t : Tally) : ∃ t', c.apply g t = (.ok t', g') := by
  rcases h.cases with ⟨id, p, new, rfl, he⟩ | ⟨a, b, length, travel, name, new, rfl, he⟩
  · simp only [Change.apply, he]
    exact ⟨_, rfl⟩
  · simp only [Change.apply, he]
    exact ⟨_, rfl⟩

omit [LawfulCost α] in
theorem MakesAll.applyAll (h : MakesAll cs g g') (t : Tally) :
    ∃ t', Trip.applyAll cs g t = (.ok t', g') := by
  induction h generalizing t with
  | nil => exact ⟨t, rfl⟩
  | cons hc _ ih =>
    obtain ⟨t₁, happly⟩ := hc.apply t
    obtain ⟨t', hrest⟩ := ih t₁
    exact ⟨t', by rw [Trip.applyAll, happly, ← hrest]⟩

omit [LawfulCost α] in
theorem MakesAll.split (h : MakesAll (cs ++ ds) g g') : ∃ k, MakesAll cs g k ∧ MakesAll ds k g' := by
  induction cs generalizing g with
  | nil => exact ⟨g, .nil, h⟩
  | cons c rest ih =>
    cases h with
    | cons hc hrest =>
      obtain ⟨k, hcs, hds⟩ := ih hrest
      exact ⟨k, .cons hc hcs, hds⟩

/-- After some of the first changes all of them come to the same network. -/
theorem MakesAll.resume (hg : g.Grown) (h : MakesAll cs g g') (hbegun : ds <+: cs) :
    ∃ k, MakesAll ds g k ∧ MakesAll cs k g' := by
  obtain ⟨rest, rfl⟩ := hbegun
  obtain ⟨k, hds, hrest⟩ := h.split
  obtain ⟨t, happly⟩ := hds.applyAll .none
  have hagain : MakesAll ds k k := makesAll_of_applyAll (applyAll_again hg happly .none)
  exact ⟨k, hds, hagain.append hrest⟩

/-- A partition whose merging was broken off anywhere is merged from the start, and the network is the one that
it would have been; what the two attempts count adds up. Once it is merged, merging it again changes nothing and
counts nothing. -/
theorem merging_again (hg : g.Grown) (travel : Travel α) (part : Partition α π)
    (h : applyAll (changesOf travel part) g .none = (.ok t, g')) :
    (∀ begun, begun <+: changesOf travel part → ∃ s k s', applyAll begun g .none = (.ok s, k) ∧
      applyAll (changesOf travel part) k .none = (.ok s', g') ∧
      s.nodes + s'.nodes = t.nodes ∧ s.edges + s'.edges = t.edges) ∧
    applyAll (changesOf travel part) g' .none = (.ok .none, g') := by
  refine ⟨fun begun hbegun => ?_, applyAll_again hg h .none⟩
  obtain ⟨k, hfirst, hall⟩ := (makesAll_of_applyAll h).resume hg hbegun
  obtain ⟨s, hs⟩ := hfirst.applyAll .none
  obtain ⟨s', hs'⟩ := hall.applyAll .none
  obtain ⟨hnodes, hedges⟩ := applyAll_rises hg h
  obtain ⟨hnodes₁, hedges₁⟩ := applyAll_rises hg hs
  obtain ⟨hnodes₂, hedges₂⟩ := applyAll_rises (hfirst.grown hg) hs'
  have hnone : Tally.none.nodes = 0 ∧ Tally.none.edges = 0 := ⟨rfl, rfl⟩
  refine ⟨s, k, s', hs, hs', ?_, ?_⟩ <;> omega

end Again

/-! ## A partition whose rows are at odds -/

namespace Pair

/-- A junction that is listed twice, a road that is listed three times, and a road that leads nowhere. -/
def tangled : Partition Float Point :=
  ⟨west, [⟨1, ⟨0.5, 0.5⟩⟩, ⟨3, ⟨0.5, 0.25⟩⟩, ⟨1, ⟨0.25, 0.5⟩⟩],
    [⟨1, 2, 100.0, "primary", none, false⟩, ⟨3, 3, 10.0, "service", none, false⟩,
      ⟨1, 2, 70.0, "service", some "90", true⟩, ⟨2, 1, 80.0, "primary", none, false⟩]⟩

/-- There is room for its changes where a road is known already. -/
theorem hasRoom_oneRoad : HasRoom (Network.oneRoad ⟨0.25, 0.75⟩ 20.0 2.0 : Network Float Point) 20 10 := by
  have hempty : HasRoom (.empty : Network Float Point) 23 11 := ⟨by decide, by decide⟩
  obtain ⟨new, g₁, hplace, hroom₁⟩ := HasRoom.place (n := 22) hempty 2 ⟨0.25, 0.75⟩
  obtain ⟨new', g₂, hedge, hroom₂⟩ := HasRoom.addEdge (n := 20) (k := 10) hroom₁ 1 2 20.0 2.0 "road"
  unfold Network.oneRoad
  rw [hplace, hedge]
  exact hroom₂

/-- Broken off between the two directions of its last road, it is merged from the start. -/
theorem merging_again_tangled :
    let cs := changesOf Speed.Profile.standard.seconds tangled
    let g : Network Float Point := Network.oneRoad ⟨0.25, 0.75⟩ 20.0 2.0
    ∃ t g', g.Grown ∧ applyAll cs g .none = (.ok t, g') ∧
      (∃ s k s', applyAll (cs.take 9) g .none = (.ok s, k) ∧ applyAll cs k .none = (.ok s', g') ∧
        s.nodes + s'.nodes = t.nodes ∧ s.edges + s'.edges = t.edges) ∧
      applyAll cs g' .none = (.ok .none, g') := by
  intro cs g
  have hg : g.Grown := Network.oneRoad_grown _ _ _
  have hroom : HasRoom g (0 + 2 * cs.length) (0 + cs.length) := hasRoom_oneRoad
  obtain ⟨t, g', h, -⟩ := hroom.applyAll .none
  obtain ⟨hbegun, hagain⟩ := merging_again hg _ tangled h
  exact ⟨t, g', hg, h, hbegun _ (List.take_prefix 9 cs), hagain⟩

end Pair
end RoadRouting.Trip
