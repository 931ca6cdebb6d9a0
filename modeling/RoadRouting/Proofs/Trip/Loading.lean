import RoadRouting.Proofs.Lists
import RoadRouting.Proofs.Network.Growth
import RoadRouting.Trip.Loader

/-!
# What loading does to a network

A request merges partitions row by row, and stops at the first row for which there is no room. Whatever
becomes of it, what each change keeps is kept (`Holding.ensure_keeps`): the network grows, nodes that had
a position have one, and new positions are those of rows (`Fills`). After a request that succeeds all of its cells that have partitions are loaded, and
the junctions of a loaded partition have positions (`Holding.Faithful`).
-/

namespace RoadRouting.Trip
set_option autoImplicit false
open Dataset (Junction Road Partition)
open Grid (Cell CellSet)
open Network (Full Quantity Updates)

variable {ε α π : Type}

/-- What a dataset has: the cells with partitions, and the junctions of those that can be read. -/
structure Stock (π : Type) where
  available : CellSet
  junctions : Cell → Option (List (Junction π))

/-- An available partition has a junction at the position. -/
def Stock.Lists (d : Stock π) (id : Int64) (p : π) : Prop :=
  ∃ cell, d.available.contains cell ∧ ∃ js, d.junctions cell = some js ∧ ⟨id, p⟩ ∈ js

/-- The partitions that are read are those of the dataset. -/
structure Stock.Feeds (d : Stock π) (supply : Supply ε α π) : Prop where
  available : supply.available = d.available
  cell : ∀ c part, d.available.contains c → supply.read c = .ok part → part.cell = c
  junctions : ∀ c part, d.available.contains c → supply.read c = .ok part →
    d.junctions c = some part.junctions

/-- A network has grown, and each new position is one that a node may have. -/
structure Fills [Quantity α] (P : Int64 → π → Prop) (g g' : Network α π) : Prop where
  grown : g'.Grown
  updates : Updates g g'
  keeps : ∀ id, (g.positionOf id).isSome → (g'.positionOf id).isSome
  lies : (∀ id p, g.positionOf id = some p → P id p) → ∀ id p, g'.positionOf id = some p → P id p

/-- A change places a node only where it may lie. -/
def Change.Fits (P : Int64 → π → Prop) : Change α π → Prop
  | .place id p => P id p
  | .connect .. => True

/-- A change keeps a property of networks, also when there is no room for it. -/
def Change.Keeps [Quantity α] (K : Network α π → Prop) (c : Change α π) : Prop :=
  ∀ g t, K g → K (c.apply g t).2

/-- What a change was to place has a position. -/
def Change.Done (g : Network α π) : Change α π → Prop
  | .place id _ => (g.positionOf id).isSome
  | .connect .. => True

section Networks
variable [Quantity α] {P : Int64 → π → Prop} {g g' g'' : Network α π} {c : Change α π}

theorem Fills.refl (hg : g.Grown) : Fills P g g := ⟨hg, .refl, fun _ h => h, fun h => h⟩

theorem Fills.trans (h : Fills P g g') (h' : Fills P g' g'') : Fills P g g'' :=
  ⟨h'.grown, h.updates.trans h'.updates, fun id hid => h'.keeps id (h.keeps id hid),
    fun hl => h'.lies (h.lies hl)⟩

theorem Change.Done.fills (hd : c.Done g) (h : Fills P g g') : c.Done g' := by
  cases c with
  | place id p => exact h.keeps id hd
  | connect => trivial

theorem fills_place (hg : g.Grown) {id : Int64} {p : π} (hp : P id p) :
    Fills P g (g.place id p).2 := by
  cases h : (g.place id p).1 with
  | error e =>
    rw [Network.place_error h]
    exact .refl hg
  | ok fresh =>
    have hpos := hg.wellFormed.positionOf_place h
    refine ⟨.place id p hg, g.place_updates id p, ?_, ?_⟩
    · intro i hi
      rw [hpos]
      split
      · rfl
      · exact hi
    · intro hl i q hi
      rw [hpos] at hi
      split at hi
      · rename_i hid
        cases hi
        exact hid ▸ hp
      · exact hl i q hi

theorem fills_addEdge (hg : g.Grown) (source target : Int64) (length travel : α)
    (className : String) : Fills P g (g.addEdge source target length travel className).2 := by
  have hj := Network.addEdge_joins hg.wellFormed source target length travel className
  have hpos := Network.positionOf_joins hg.wellFormed hj
  refine ⟨.addEdge source target length travel className hg, Network.updates_of_joins hj, ?_, ?_⟩
  · intro i hi
    rwa [hpos]
  · intro hl i p hi
    rw [hpos] at hi
    exact hl i p hi

/-- Counting aside, a change places a node or adds an edge. -/
theorem Change.network_apply (c : Change α π) (g : Network α π) (t : Tally) :
    (c.apply g t).2 = match c with
      | .place id p => (g.place id p).2
      | .connect a b length travel name => (g.addEdge a b length travel name).2 := by
  cases c with
  | place id p =>
    unfold Change.apply
    dsimp only
    rcases g.place id p with ⟨_ | fresh, g₁⟩ <;> rfl
  | connect a b length travel name =>
    unfold Change.apply
    dsimp only
    rcases g.addEdge a b length travel name with ⟨_ | fresh, g₁⟩ <;> rfl

theorem applyAll_keeps {K : Network α π → Prop} {cs : List (Change α π)} (hcs : ∀ c ∈ cs, c.Keeps K)
    (hg : K g) (t : Tally) : K (applyAll cs g t).2 := by
  induction cs generalizing g t with
  | nil => exact hg
  | cons c rest ih =>
    have h := hcs c List.mem_cons_self g t hg
    unfold applyAll
    rcases he : c.apply g t with ⟨_ | t', g₁⟩
    · rwa [he] at h
    · rw [he] at h
      exact ih (fun d hd => hcs d (List.mem_cons_of_mem _ hd)) h t'

/-- A change fills the network, and is done if it succeeds. -/
theorem Change.apply_fills (hg : g.Grown) (hc : c.Fits P) (t : Tally) :
    Fills P g (c.apply g t).2 ∧ ∀ t', (c.apply g t).1 = .ok t' → c.Done (c.apply g t).2 := by
  cases c with
  | place id p =>
    have h := fills_place hg hc
    have hdone : ∀ fresh, (g.place id p).1 = .ok fresh → ((g.place id p).2.positionOf id).isSome := by
      intro fresh hf
      rw [hg.wellFormed.positionOf_place hf, if_pos rfl]
      rfl
    unfold Change.apply
    rcases he : g.place id p with ⟨r, g1⟩
    rw [he] at h hdone
    simp only [he]
    cases r with
    | error e => exact ⟨h, fun _ ht => by cases ht⟩
    | ok fresh => exact ⟨h, fun _ _ => hdone fresh rfl⟩
  | connect source target length travel className =>
    have h := fills_addEdge (P := P) hg source target length travel className
    unfold Change.apply
    rcases he : g.addEdge source target length travel className with ⟨r, g1⟩
    rw [he] at h
    simp only [he]
    cases r with
    | error e => exact ⟨h, fun _ _ => trivial⟩
    | ok fresh => exact ⟨h, fun _ _ => trivial⟩

/-- Changes fill the network, and are all done if they succeed. -/
theorem applyAll_fills {cs : List (Change α π)} (hg : g.Grown) (hcs : ∀ c ∈ cs, c.Fits P) (t : Tally) :
    Fills P g (applyAll cs g t).2 ∧
      ∀ t', (applyAll cs g t).1 = .ok t' → ∀ c ∈ cs, c.Done (applyAll cs g t).2 := by
  induction cs generalizing g t with
  | nil => exact ⟨.refl hg, fun _ _ c hc => by cases hc⟩
  | cons c rest ih =>
    obtain ⟨h1, hd1⟩ := Change.apply_fills hg (hcs c List.mem_cons_self) t
    unfold applyAll
    rcases he : c.apply g t with ⟨r, g1⟩
    rw [he] at h1 hd1
    cases r with
    | error e => exact ⟨h1, fun _ ht => by cases ht⟩
    | ok t1 =>
      obtain ⟨h2, hd2⟩ := ih h1.grown (fun d hd => hcs d (List.mem_cons_of_mem _ hd)) t1
      refine ⟨h1.trans h2, ?_⟩
      intro t' ht d hd
      rcases List.mem_cons.1 hd with rfl | hd
      · exact (hd1 t1 rfl).fills h2
      · exact hd2 t' ht d hd

omit [Quantity α] in
/-- What a partition asks for is to place its junctions and to connect the ends of its roads. -/
theorem forall_changesOf {travel : Travel α} {part : Partition α π} {Q : Change α π → Prop}
    (hplace : ∀ j ∈ part.junctions, Q (.place j.id j.position))
    (hconnect : ∀ r ∈ part.roads, ∀ a b,
      Q (.connect a b r.length (travel r.length r.className r.limit) r.className)) :
    ∀ c ∈ changesOf travel part, Q c := by
  intro c hc
  rcases List.mem_append.1 hc with hc | hc
  · obtain ⟨j, hj, rfl⟩ := List.mem_map.1 hc
    exact hplace j hj
  · obtain ⟨r, hr, hc⟩ := List.mem_flatMap.1 hc
    unfold changesOfRoad at hc
    rcases List.mem_cons.1 hc with rfl | hc
    · exact hconnect r hr _ _
    · split at hc
      · cases hc
      · rw [List.mem_singleton.1 hc]
        exact hconnect r hr _ _

omit [Quantity α] in
theorem fits_changesOf (travel : Travel α) {part : Partition α π}
    (h : ∀ j ∈ part.junctions, P j.id j.position) : ∀ c ∈ changesOf travel part, c.Fits P :=
  forall_changesOf h fun _ _ _ _ => trivial

end Networks

namespace Holding
variable [Quantity α] {P : Int64 → π → Prop} {h : Holding α π} {travel : Travel α}

/-- The junctions of a partition have positions. -/
def Placed (g : Network α π) (js : List (Junction π)) : Prop :=
  ∀ j ∈ js, (g.positionOf j.id).isSome

theorem Placed.fills {g g' : Network α π} {js : List (Junction π)} (hp : Placed g js)
    (hf : Fills P g g') : Placed g' js :=
  fun j hj => hf.keeps j.id (hp j hj)

/-- What the merging of partitions does: the network is filled, what is loaded stays, and what is loaded
anew has its junctions placed. -/
structure Merged (P : Int64 → π → Prop) (ps : List (Partition α π)) (h h' : Holding α π) : Prop where
  fills : Fills P h.network h'.network
  answered : h'.loader.answered = h.loader.answered
  keeps : ∀ c, h.loader.loaded.contains c → h'.loader.loaded.contains c
  loaded : ∀ c, h'.loader.loaded.contains c → h.loader.loaded.contains c ∨
    ∃ p ∈ ps, p.cell = c ∧ Placed h'.network p.junctions

theorem merge_merged (travel : Travel α) {ps : List (Partition α π)} (hg : h.network.Grown)
    (hps : ∀ p ∈ ps, ∀ j ∈ p.junctions, P j.id j.position) (t : Tally) :
    Merged P ps h (merge travel ps h t).2 ∧
      ∀ t', (merge travel ps h t).1 = .ok t' →
        ∀ p ∈ ps, (merge travel ps h t).2.loader.loaded.contains p.cell := by
  induction ps generalizing h t with
  | nil => exact ⟨⟨.refl hg, rfl, fun _ hc => hc, fun _ hc => .inl hc⟩, fun _ _ p hp => by cases hp⟩
  | cons p rest ih =>
    obtain ⟨loader, network⟩ := h
    have hfits := fits_changesOf travel (hps p List.mem_cons_self)
    obtain ⟨h1, hd1⟩ := applyAll_fills hg hfits t
    unfold merge
    rcases he : applyAll (changesOf travel p) network t with ⟨r, g1⟩
    rw [he] at h1 hd1
    cases r with
    | error e =>
      exact ⟨⟨h1, rfl, fun _ hc => hc, fun _ hc => .inl hc⟩, fun _ ht => by cases ht⟩
    | ok t1 =>
      have hplaced : Placed g1 p.junctions := fun j hj =>
        hd1 t1 rfl (.place j.id j.position) (List.mem_append_left _ (List.mem_map_of_mem hj))
      obtain ⟨m, hall⟩ := ih (h := ⟨{ loader with loaded := loader.loaded.insert p.cell }, g1⟩) h1.grown
        (fun q hq => hps q (List.mem_cons_of_mem _ hq)) t1
      refine ⟨⟨h1.trans m.fills, m.answered, fun c hc => m.keeps c ?_, ?_⟩, ?_⟩
      · simp only [Std.TreeSet.contains_insert, hc, Bool.or_true]
      · intro c hc
        rcases m.loaded c hc with hc | ⟨q, hq, hqc, hqp⟩
        · simp only [Std.TreeSet.contains_insert, Bool.or_eq_true, beq_iff_eq,
            Std.LawfulEqCmp.compare_eq_iff_eq] at hc
          rcases hc with rfl | hc
          · exact .inr ⟨p, List.mem_cons_self, rfl, hplaced.fills m.fills⟩
          · exact .inl hc
        · exact .inr ⟨q, List.mem_cons_of_mem _ hq, hqc, hqp⟩
      · intro t' ht q hq
        rcases List.mem_cons.1 hq with rfl | hq
        · exact m.keeps _ (by simp)
        · exact hall t' ht q hq

variable {supply : Supply ε α π} {keys : CellSet}

/-- The ways in which a request ends, with the partitions that it merges if it succeeds: it was answered
before, or it reads what is pending and merges that. -/
inductive Ensured (h : Holding α π) (supply : Supply ε α π) (keys : CellSet) :
    Except (LoadFault ε) Report → List (Partition α π) → Holding α π → Prop
  | repeated : h.loader.answered.contains keys.toList →
      Ensured h supply keys (.ok ⟨.none, 0, true⟩) []
        { h with loader := { h.loader with hits := h.loader.hits + 1 } }
  | unreadable {e : ε} : ¬ h.loader.answered.contains keys.toList →
      (h.pending supply.available keys).mapM supply.read = .error e →
      Ensured h supply keys (.error (.unreadable e)) [] h
  | full {ps : List (Partition α π)} {e : Full} {h' : Holding α π} :
      ¬ h.loader.answered.contains keys.toList →
      (h.pending supply.available keys).mapM supply.read = .ok ps →
      merge supply.travel ps h .none = (.error e, h') →
      Ensured h supply keys (.error (.full e)) [] h'
  | merged {ps : List (Partition α π)} {tally : Tally} {loader : Loader} {network : Network α π} :
      ¬ h.loader.answered.contains keys.toList →
      (h.pending supply.available keys).mapM supply.read = .ok ps →
      merge supply.travel ps h .none = (.ok tally, ⟨loader, network⟩) →
      Ensured h supply keys (.ok ⟨tally, ps.length, false⟩) ps
        ⟨{ loader with answered := loader.answered.insert keys.toList }, network⟩

theorem ensure_ensured (h : Holding α π) (supply : Supply ε α π) (keys : CellSet) :
    ∃ ps, Ensured h supply keys (h.ensure supply keys).1 ps (h.ensure supply keys).2 := by
  unfold ensure
  simp only
  split
  · rename_i ha
    exact ⟨[], .repeated ha⟩
  · rename_i ha
    cases hm : (h.pending supply.available keys).mapM supply.read with
    | error e => exact ⟨[], .unreadable ha hm⟩
    | ok ps =>
      simp only
      rcases he : merge supply.travel ps h .none with ⟨_ | tally, loader, network⟩
      · exact ⟨[], .full ha hm he⟩
      · exact ⟨ps, .merged ha hm he⟩

omit [Quantity α] in
theorem mem_pending {available : CellSet} {c : Cell} : c ∈ h.pending available keys ↔
    c ∈ keys.toList ∧ available.contains c ∧ ¬ h.loader.loaded.contains c := by
  rw [pending, List.mem_filter, Bool.and_eq_true, Bool.not_eq_true', Bool.not_eq_true]

section Keeps
variable {K : Network α π → Prop}

theorem merge_keeps {ps : List (Partition α π)} (hps : ∀ p ∈ ps, ∀ c ∈ changesOf travel p, c.Keeps K)
    (hg : K h.network) (t : Tally) : K (merge travel ps h t).2.network := by
  induction ps generalizing h t with
  | nil => exact hg
  | cons p rest ih =>
    obtain ⟨loader, network⟩ := h
    have hfirst := applyAll_keeps (hps p List.mem_cons_self) hg t
    unfold merge
    rcases he : applyAll (changesOf travel p) network t with ⟨_ | t', g'⟩
    · rwa [he] at hfirst
    · rw [he] at hfirst
      exact ih (fun q hq => hps q (List.mem_cons_of_mem _ hq)) hfirst t'

/-- A request keeps what the changes of all partitions keep that it can read, whatever becomes of it. -/
theorem ensure_keeps (hg : K h.network)
    (hread : ∀ c part, supply.available.contains c → supply.read c = .ok part →
      ∀ d ∈ changesOf supply.travel part, d.Keeps K) :
    K (h.ensure supply keys).2.network := by
  have hmerge {ps : List (Partition α π)}
      (hps : (h.pending supply.available keys).mapM supply.read = .ok ps) :
      K (merge supply.travel ps h .none).2.network := by
    refine merge_keeps (fun p hp => ?_) hg .none
    obtain ⟨c, hc, hcp⟩ := exists_of_mem_left (mapM_eq_ok hps).flip hp
    exact hread c p (mem_pending.1 hc).2.1 hcp
  obtain ⟨ps, hend⟩ := ensure_ensured h supply keys
  generalize (h.ensure supply keys).1 = answer at hend
  generalize (h.ensure supply keys).2 = h' at hend ⊢
  cases hend with
  | repeated _ => exact hg
  | unreadable _ _ => exact hg
  | full _ hps hm =>
    have hk := hmerge hps
    rwa [hm] at hk
  | merged _ hps hm =>
    have hk := hmerge hps
    rwa [hm] at hk

end Keeps

/-- A request fills the network, whatever becomes of it. -/
theorem ensure_fills {P : Int64 → π → Prop} (hg : h.network.Grown)
    (hread : ∀ c part, supply.available.contains c → supply.read c = .ok part →
      ∀ j ∈ part.junctions, P j.id j.position) :
    Fills P h.network (h.ensure supply keys).2.network := by
  refine ensure_keeps (.refl hg) fun c part hc hpart d hd g t hf => ?_
  have hfits := fits_changesOf supply.travel (hread c part hc hpart) d hd
  exact hf.trans (Change.apply_fills hf.grown hfits t).1

/-- What is loaded is what the dataset has: nodes lie where junctions are listed, the junctions of a
loaded partition are placed, and the cells that were asked for are loaded if they have partitions. -/
structure Faithful (d : Stock π) (h : Holding α π) : Prop where
  grown : h.network.Grown
  lies : ∀ id p, h.network.positionOf id = some p → d.Lists id p
  placed : ∀ c, h.loader.loaded.contains c → ∃ js, d.junctions c = some js ∧ Placed h.network js
  answered : ∀ request, h.loader.answered.contains request → ∀ c ∈ request, d.available.contains c →
    h.loader.loaded.contains c

theorem Faithful.empty (d : Stock π) : Faithful d (Holding.empty : Holding α π) where
  grown := .empty
  lies id p hp := by simp [Holding.empty, Network.positionOf, Network.lookup, Network.empty] at hp
  placed c hc := by simp [Holding.empty] at hc
  answered request hr := by simp [Holding.empty] at hr

/-- Merging partitions of the dataset keeps what is loaded faithful. -/
theorem Faithful.merged {d : Stock π} (hf : Faithful d h) {ps : List (Partition α π)} {h' : Holding α π}
    (m : Merged d.Lists ps h h') (hps : ∀ p ∈ ps, d.junctions p.cell = some p.junctions) :
    Faithful d h' where
  grown := m.fills.grown
  lies := m.fills.lies hf.lies
  placed c hc := by
    rcases m.loaded c hc with hc | ⟨p, hp, rfl, hplaced⟩
    · obtain ⟨js, hjs, hplaced⟩ := hf.placed c hc
      exact ⟨js, hjs, hplaced.fills m.fills⟩
    · exact ⟨p.junctions, hps p hp, hplaced⟩
  answered request hr c hc ha := by
    rw [m.answered] at hr
    exact m.keeps c (hf.answered request hr c hc ha)

section Pending
variable {d : Stock π} {ps : List (Partition α π)}
  (hps : (h.pending supply.available keys).mapM supply.read = .ok ps)
include hps

omit [Quantity α] in
/-- The partitions that are pending are those of the dataset. -/
theorem rows_of_pending (hs : d.Feeds supply) :
    ∀ p ∈ ps, d.available.contains p.cell ∧ d.junctions p.cell = some p.junctions := by
  intro p hp
  obtain ⟨c, hc, hcp⟩ := exists_of_mem_left (mapM_eq_ok hps).flip hp
  have hca : d.available.contains c := hs.available ▸ (mem_pending.1 hc).2.1
  rw [hs.cell c p hca hcp]
  exact ⟨hca, hs.junctions c p hca hcp⟩

/-- Once they are merged, all cells that were asked for are loaded. -/
theorem Merged.contains {P : Int64 → π → Prop} {h' : Holding α π} (m : Merged P ps h h')
    (hlabelled : ∀ c p, supply.available.contains c → supply.read c = .ok p → p.cell = c)
    (hdone : ∀ p ∈ ps, h'.loader.loaded.contains p.cell) :
    ∀ c ∈ keys.toList, supply.available.contains c → h'.loader.loaded.contains c := by
  intro c hc hca
  by_cases hcl : h.loader.loaded.contains c
  · exact m.keeps c hcl
  · obtain ⟨p, hp, hcp⟩ := exists_of_mem_left (mapM_eq_ok hps) (mem_pending.2 ⟨hc, hca, hcl⟩)
    rw [← hlabelled c p hca hcp]
    exact hdone p hp

end Pending

/-- A request keeps what is loaded faithful; if it succeeds, all of its cells that have partitions are
loaded. -/
theorem Faithful.ensure {d : Stock π} (hf : Faithful d h) (hs : d.Feeds supply) (keys : CellSet) :
    Faithful d (h.ensure supply keys).2 ∧ ∀ report, (h.ensure supply keys).1 = .ok report →
      ∀ c ∈ keys.toList, d.available.contains c → (h.ensure supply keys).2.loader.loaded.contains c := by
  have hmerge {ps : List (Partition α π)} {r : Except Full Tally} {h' : Holding α π}
      (hps : (h.pending supply.available keys).mapM supply.read = .ok ps)
      (hm : merge supply.travel ps h .none = (r, h')) : Merged d.Lists ps h h' ∧ Faithful d h' ∧
        ∀ tally, r = .ok tally → ∀ p ∈ ps, h'.loader.loaded.contains p.cell := by
    have hrows := rows_of_pending hps hs
    have hlists : ∀ p ∈ ps, ∀ j ∈ p.junctions, d.Lists j.id j.position :=
      fun p hp j hj => ⟨p.cell, (hrows p hp).1, p.junctions, (hrows p hp).2, hj⟩
    have hboth := merge_merged supply.travel hf.grown hlists .none
    rw [hm] at hboth
    exact ⟨hboth.1, hf.merged hboth.1 fun p hp => (hrows p hp).2, hboth.2⟩
  obtain ⟨ps, hend⟩ := ensure_ensured h supply keys
  generalize (h.ensure supply keys).1 = answer at hend ⊢
  generalize (h.ensure supply keys).2 = h' at hend ⊢
  cases hend with
  | repeated ha => exact ⟨⟨hf.grown, hf.lies, hf.placed, hf.answered⟩, fun _ _ => hf.answered _ ha⟩
  | unreadable _ _ => exact ⟨hf, fun _ hr => by cases hr⟩
  | full _ hps hm => exact ⟨(hmerge hps hm).2.1, fun _ hr => by cases hr⟩
  | merged _ hps hm =>
    obtain ⟨m, hf', hdone⟩ := hmerge hps hm
    have hlabelled : ∀ c p, supply.available.contains c → supply.read c = .ok p → p.cell = c :=
      fun c p hca => hs.cell c p (hs.available ▸ hca)
    have hcells := m.contains hps hlabelled (hdone _ rfl)
    rw [hs.available] at hcells
    refine ⟨⟨hf'.grown, hf'.lies, hf'.placed, fun request hr => ?_⟩, fun _ _ => hcells⟩
    rw [Std.HashSet.contains_insert, Bool.or_eq_true] at hr
    rcases hr with hr | hr
    · rw [← eq_of_beq hr]
      exact hcells
    · exact hf'.answered request hr

end Holding
end RoadRouting.Trip
