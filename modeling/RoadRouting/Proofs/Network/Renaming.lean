import Mathlib.Data.Set.Function
import RoadRouting.Proofs.Network.Chart

/-!
# Networks up to numbering

Networks with one chart differ only in how their nodes and classes are numbered, and in the order in
which the edges that leave a node are listed (`Alike.renames`). A node corresponds to the one with the
same identifier, a class to the one with the same name.
-/

namespace RoadRouting.Network
set_option autoImplicit false

variable {α π : Type}

/-- One network is another with its nodes and classes numbered anew: identifiers, positions and names
of classes stay, and so do the edges that leave a node, up to their order. -/
structure Renames (node : NodeId → NodeId) (cls : ClassId → ClassId) (g g' : Network α π) : Prop where
  nodes : Set.BijOn node {v | v.index < g.nodeCount} {v | v.index < g'.nodeCount}
  classes : Set.BijOn cls {c | c.index < g.classes.size} {c | c.index < g'.classes.size}
  id : ∀ v, v.index < g.nodeCount → g'.id? (node v) = g.id? v
  position : ∀ v, v.index < g.nodeCount → g'.position? (node v) = g.position? v
  className : ∀ c, c.index < g.classes.size → g'.className (cls c) = g.className c
  out : ∀ v, v.index < g.nodeCount → (g'.out (node v)).Perm
    ((g.out v).map fun e => { e with target := node e.target, className := cls e.className })

/-- The node of another network with the same identifier. -/
def counterpart (g g' : Network α π) (v : NodeId) : NodeId := ((g.id? v).bind g'.lookup).getD v

/-- The class of another network with the same name. -/
def classCounterpart (g g' : Network α π) (c : ClassId) : ClassId :=
  ((g.classes[c.index]?).bind fun n => g'.classNumbers[n]?).getD c

/-- An edge as another network has it. -/
def edgeCounterpart (g g' : Network α π) (e : Edge α) : Edge α :=
  { e with target := counterpart g g' e.target, className := classCounterpart g g' e.className }

/-- Networks with one chart, of which each is in order. -/
structure Alike (g g' : Network α π) : Prop where
  wellFormed : g.WellFormed
  classified : g.Classified
  wellFormed' : g'.WellFormed
  classified' : g'.Classified
  chart : g.chart = g'.chart

namespace Alike
variable {g g' : Network α π} {v : NodeId} {c : ClassId} {e : Edge α}

theorem symm (h : Alike g g') : Alike g' g :=
  ⟨h.wellFormed', h.classified', h.wellFormed, h.classified, h.chart.symm⟩

/-- A node of one network has an identifier, and that is the identifier of its counterpart. -/
theorem exists_id (h : Alike g g') (hv : v.index < g.nodeCount) :
    ∃ id, g.lookup id = some v ∧ g'.lookup id = some (counterpart g g' v) := by
  obtain ⟨id, hlookup⟩ := h.wellFormed.exists_lookup hv
  have hknown : id ∈ g'.chart.known := by
    rw [← h.chart]
    exact Option.isSome_iff_exists.2 ⟨v, hlookup⟩
  obtain ⟨w, hw⟩ := Option.isSome_iff_exists.1 hknown
  refine ⟨id, hlookup, ?_⟩
  rw [counterpart, (h.wellFormed.lookup_iff id v).1 hlookup, Option.bind_some, hw]
  rfl

/-- A class of one network has a name, and that is the name of its counterpart. -/
theorem exists_name (h : Alike g g') (hc : c.index < g.classes.size) :
    ∃ n : String, g.classNumbers[n]? = some c ∧ g'.classNumbers[n]? = some (classCounterpart g g' c) := by
  have hname : g.classes[c.index]? = some g.classes[c.index] := Array.getElem?_eq_getElem hc
  have hnumber := (h.classified.number_iff _ c).2 hname
  have hnamed : g.classes[c.index] ∈ g'.chart.named := by
    rw [← h.chart]
    exact Option.isSome_iff_exists.2 ⟨c, hnumber⟩
  obtain ⟨d, hd⟩ := Option.isSome_iff_exists.1 hnamed
  refine ⟨_, hnumber, ?_⟩
  rw [classCounterpart, hname, Option.bind_some, hd]
  rfl

theorem counterpart_lt (h : Alike g g') (hv : v.index < g.nodeCount) :
    (counterpart g g' v).index < g'.nodeCount := by
  obtain ⟨id, -, hid⟩ := h.exists_id hv
  exact h.wellFormed'.index_lt hid

theorem classCounterpart_lt (h : Alike g g') (hc : c.index < g.classes.size) :
    (classCounterpart g g' c).index < g'.classes.size := by
  obtain ⟨n, -, hn⟩ := h.exists_name hc
  exact h.classified'.index_lt hn

theorem counterpart_counterpart (h : Alike g g') (hv : v.index < g.nodeCount) :
    counterpart g' g (counterpart g g' v) = v := by
  obtain ⟨id, hid, hid'⟩ := h.exists_id hv
  rw [counterpart, (h.wellFormed'.lookup_iff _ _).1 hid', Option.bind_some, hid]
  rfl

theorem classCounterpart_classCounterpart (h : Alike g g') (hc : c.index < g.classes.size) :
    classCounterpart g' g (classCounterpart g g' c) = c := by
  obtain ⟨n, hn, hn'⟩ := h.exists_name hc
  rw [classCounterpart, (h.classified'.number_iff _ _).1 hn', Option.bind_some, hn]
  rfl

theorem bijOn_counterpart (h : Alike g g') :
    Set.BijOn (counterpart g g') {v | v.index < g.nodeCount} {v | v.index < g'.nodeCount} :=
  Set.InvOn.bijOn
    ⟨fun _ hv => h.counterpart_counterpart hv, fun _ hv => h.symm.counterpart_counterpart hv⟩
    (fun _ hv => h.counterpart_lt hv) fun _ hv => h.symm.counterpart_lt hv

theorem bijOn_classCounterpart (h : Alike g g') : Set.BijOn (classCounterpart g g')
    {c | c.index < g.classes.size} {c | c.index < g'.classes.size} :=
  Set.InvOn.bijOn
    ⟨fun _ hc => h.classCounterpart_classCounterpart hc,
      fun _ hc => h.symm.classCounterpart_classCounterpart hc⟩
    (fun _ hc => h.classCounterpart_lt hc) fun _ hc => h.symm.classCounterpart_lt hc

/-- The counterpart of an edge leaves the counterpart of its node. -/
theorem edgeCounterpart_mem (h : Alike g g') (hv : v.index < g.nodeCount) (he : e ∈ g.out v) :
    edgeCounterpart g g' e ∈ g'.out (counterpart g g' v) := by
  obtain ⟨a, ha, ha'⟩ := h.exists_id hv
  obtain ⟨b, hb, hb'⟩ := h.exists_id (h.wellFormed.targets v e he)
  obtain ⟨n, hn, hn'⟩ := h.exists_name (h.classified.inRange v e he)
  have hlink : g.linkOf a b = some ⟨e.length, e.travel, n⟩ := by
    rw [linkOf_eq ha hb, h.wellFormed.edge?_eq he, Option.map_some, h.classified.className_eq hn]
  have hlink' : g'.linkOf a b = some ⟨e.length, e.travel, n⟩ := by
    rw [← hlink]
    exact (congrFun (congrArg Chart.link h.chart) (a, b)).symm
  rw [linkOf_eq ha' hb'] at hlink'
  obtain ⟨f, hf, hlinks⟩ := Option.map_eq_some_iff.1 hlink'
  obtain ⟨hmem, htarget⟩ := mem_of_edge? hf
  simp only [Link.mk.injEq] at hlinks
  obtain ⟨hlength, htravel, hname⟩ := hlinks
  -- Both classes have one name, so they have one number.
  obtain ⟨m, hm, -⟩ := h.symm.exists_name (h.classified'.inRange _ f hmem)
  rw [h.classified'.className_eq hm] at hname
  rw [hname, hn'] at hm
  have hsame : edgeCounterpart g g' e = f := by
    cases f
    simp only [edgeCounterpart, Edge.mk.injEq]
    exact ⟨htarget.symm, hlength.symm, htravel.symm, Option.some.inj hm⟩
  rw [hsame]
  exact hmem

theorem edgeCounterpart_edgeCounterpart (h : Alike g g') (he : e ∈ g.out v) :
    edgeCounterpart g' g (edgeCounterpart g g' e) = e := by
  unfold edgeCounterpart
  simp only [h.counterpart_counterpart (h.wellFormed.targets v e he),
    h.classCounterpart_classCounterpart (h.classified.inRange v e he)]

theorem perm_out (h : Alike g g') (hv : v.index < g.nodeCount) :
    (g'.out (counterpart g g' v)).Perm ((g.out v).map (edgeCounterpart g g')) := by
  have hv' := h.counterpart_lt hv
  have hnodup : ((g.out v).map (edgeCounterpart g g')).Nodup := by
    refine List.Nodup.map_on ?_ (h.wellFormed.distinct v).of_map
    intro e he f hf hef
    rw [← h.edgeCounterpart_edgeCounterpart he, hef, h.edgeCounterpart_edgeCounterpart hf]
  refine (List.perm_ext_iff_of_nodup (h.wellFormed'.distinct _).of_map hnodup).2 fun f => ?_
  rw [List.mem_map]
  constructor
  · intro hf
    have hback := h.symm.edgeCounterpart_mem hv' hf
    rw [h.counterpart_counterpart hv] at hback
    exact ⟨_, hback, h.symm.edgeCounterpart_edgeCounterpart hf⟩
  · rintro ⟨e, he, rfl⟩
    exact h.edgeCounterpart_mem hv he

/-- Networks with one chart are the same up to numbering. -/
theorem renames (h : Alike g g') : Renames (counterpart g g') (classCounterpart g g') g g' where
  nodes := h.bijOn_counterpart
  classes := h.bijOn_classCounterpart
  id v hv := by
    obtain ⟨id, hid, hid'⟩ := h.exists_id hv
    rw [(h.wellFormed.lookup_iff _ _).1 hid, (h.wellFormed'.lookup_iff _ _).1 hid']
  position v hv := by
    obtain ⟨id, hid, hid'⟩ := h.exists_id hv
    have hpos : g.positionOf id = g'.positionOf id := congrFun (congrArg Chart.position h.chart) id
    rw [positionOf, positionOf, hid, hid'] at hpos
    exact hpos.symm
  className c hc := by
    obtain ⟨n, hn, hn'⟩ := h.exists_name hc
    rw [h.classified.className_eq hn, h.classified'.className_eq hn']
  out v hv := h.perm_out hv

end Alike
end RoadRouting.Network
