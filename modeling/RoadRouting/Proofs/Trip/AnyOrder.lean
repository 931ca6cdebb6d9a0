import RoadRouting.Proofs.Network.Counts
import RoadRouting.Proofs.Network.Renaming
import RoadRouting.Proofs.Trip.LastWrites

/-!
# The order of loading

Two runs of requests that succeed and together ask for the same partitions leave networks of one shape
(`SameShape`): the same identifiers, positions and edges are there, and the counts and the fastest speed
agree. Where two partitions have rows for one junction or one edge the last row counts, so what is said
of it may differ; if there are no such rows, the networks are the same up to the numbers of nodes and
classes (`load_order_irrelevant`).
-/

namespace RoadRouting.Trip
set_option autoImplicit false
open Dataset (Catalog Partition Road)
open Grid (Cell CellSet)
open Network (Alike IsTop LawfulCost Quantity Renames)
open Store (Disk)

variable {ε α π : Type}

/-- Two networks have the same identifiers, positions and edges, as many of them, and one fastest
speed. -/
structure SameShape [Quantity α] (g g' : Network α π) : Prop where
  known : ∀ id, (g.lookup id).isSome ↔ (g'.lookup id).isSome
  placed : ∀ id, (g.positionOf id).isSome ↔ (g'.positionOf id).isSome
  linked : ∀ a b, (g.linkOf a b).isSome ↔ (g'.linkOf a b).isSome
  nodeCount : g.nodeCount = g'.nodeCount
  edgeCount : g.edgeCount = g'.edgeCount
  fastest : g.fastest = g'.fastest

/-- No two of some partitions have a row for one junction, or rows that make an edge between the same
two identifiers. -/
structure Apart (Among : Partition α π → Prop) : Prop where
  junctions : ∀ p q, Among p → Among q → p.cell ≠ q.cell →
    ∀ j ∈ p.junctions, ∀ k ∈ q.junctions, j.id ≠ k.id
  roads : ∀ p q, Among p → Among q → p.cell ≠ q.cell →
    ∀ r ∈ p.roads, ∀ s ∈ q.roads, ∀ a b, Joins r a b → ¬ Joins s a b

/-- Two partitions are kept apart by what is said of their rows. -/
theorem Apart.of_two {Among : Partition α π → Prop} {x y : Partition α π}
    (hparts : ∀ p, Among p → p = x ∨ p = y)
    (hjunctions : ∀ j ∈ x.junctions, ∀ k ∈ y.junctions, j.id ≠ k.id)
    (hroads : ∀ r ∈ x.roads, ∀ s ∈ y.roads, ∀ a b, Joins r a b → ¬ Joins s a b) : Apart Among := by
  constructor
  · intro p q hp hq hne j hj k hk
    rcases hparts p hp with rfl | rfl <;> rcases hparts q hq with rfl | rfl
    · exact absurd rfl hne
    · exact hjunctions j hj k hk
    · exact (hjunctions k hk j hj).symm
    · exact absurd rfl hne
  · intro p q hp hq hne r hr s hs a b hrj hsj
    rcases hparts p hp with rfl | rfl <;> rcases hparts q hq with rfl | rfl
    · exact absurd rfl hne
    · exact hroads r hr s hs a b hrj hsj
    · exact hroads s hs r hr a b hsj hrj
    · exact absurd rfl hne

/-! ## Partitions in another order -/

/-- Lists of which at most one has items can be joined in any order. -/
theorem flatMap_eq_of_perm {β γ : Type} {f : β → List γ} {l l' : List β} (h : l.Perm l')
    (hone : l.Pairwise fun x y => f x = [] ∨ f y = []) : l.flatMap f = l'.flatMap f := by
  induction h with
  | nil => rfl
  | cons x _ ih => rw [List.flatMap_cons, List.flatMap_cons, ih (List.pairwise_cons.1 hone).2]
  | swap x y l =>
    have hxy := (List.pairwise_cons.1 hone).1 x List.mem_cons_self
    rcases hxy with hy | hx
    · simp [hy]
    · simp [hx]
  | trans h₁ _ ih₁ ih₂ =>
    have hsymm {x y : β} (h : f x = [] ∨ f y = []) : f y = [] ∨ f x = [] := h.symm
    rw [ih₁ hone, ih₂ ((h₁.pairwise_iff hsymm).1 hone)]

/-- What some items give is all that more items give, if only one item gives anything. -/
theorem flatMap_eq_of_subset {β γ : Type} {f : β → List γ} {l l' : List β} (hnodup : l.Nodup)
    (hsub : l ⊆ l') (hone : l'.Pairwise fun x y => f x = [] ∨ f y = []) (hne : l.flatMap f ≠ []) :
    l'.flatMap f = l.flatMap f := by
  obtain ⟨k, hk, hsublist⟩ := List.subperm_of_subset hnodup hsub
  obtain ⟨rest, hcut⟩ := hsublist.exists_perm_append
  have hperm : l'.Perm (l ++ rest) := hcut.trans (hk.append_right rest)
  obtain ⟨y, hy⟩ := List.exists_mem_of_ne_nil _ hne
  obtain ⟨x, hx, hyx⟩ := List.mem_flatMap.1 hy
  have hsymm {x y : β} (h : f x = [] ∨ f y = []) : f y = [] ∨ f x = [] := h.symm
  have hrest : rest.flatMap f = [] := by
    refine List.flatMap_eq_nil_iff.2 fun z hz => ?_
    rcases (List.pairwise_append.1 ((hperm.pairwise_iff hsymm).1 hone)).2.2 x hx z hz with hfx | hfz
    · rw [hfx] at hyx
      cases hyx
    · exact hfz
  rw [flatMap_eq_of_perm hperm hone, List.flatMap_append, hrest, List.append_nil]

section Perm
variable {travel : Travel α} {ps ps' : List (Partition α π)}

/-- Of two partitions at most one has what is looked for. -/
theorem pairwise_of_apart {γ : Type} {f : Partition α π → List γ} (hnodup : (ps.map (·.cell)).Nodup)
    (hone : ∀ p ∈ ps, ∀ q ∈ ps, p.cell ≠ q.cell → ∀ x ∈ f p, ∀ y ∈ f q, False) :
    ps.Pairwise fun p q => f p = [] ∨ f q = [] := by
  have hcells : ps.Pairwise fun p q => p.cell ≠ q.cell := List.pairwise_map.1 hnodup
  refine hcells.imp_of_mem ?_
  intro p q hp hq hne
  cases hfp : f p with
  | nil => exact .inl rfl
  | cons x _ =>
    cases hfq : f q with
    | nil => exact .inr rfl
    | cons y _ => exact (hone p hp q hq hne x (by simp [hfp]) y (by simp [hfq])).elim

/-- At most one partition has rows for a junction. -/
theorem pairwise_junctions (hnodup : (ps.map (·.cell)).Nodup) (ha : Apart (· ∈ ps)) (id : Int64) :
    ps.Pairwise fun p q =>
      p.junctions.filter (·.id = id) = [] ∨ q.junctions.filter (·.id = id) = [] := by
  refine pairwise_of_apart hnodup ?_
  intro p hp q hq hne j hj k hk
  obtain ⟨hj, hjid⟩ := List.mem_filter.1 hj
  obtain ⟨hk, hkid⟩ := List.mem_filter.1 hk
  simp only [decide_eq_true_eq] at hjid hkid
  exact ha.junctions p q hp hq hne j hj k hk (hjid.trans hkid.symm)

/-- At most one partition has rows that make an edge. -/
theorem pairwise_links (hnodup : (ps.map (·.cell)).Nodup) (ha : Apart (· ∈ ps)) (a b : Int64) :
    ps.Pairwise fun p q => (p.roads.flatMap (linksOf travel)).filter (·.1 = (a, b)) = [] ∨
      (q.roads.flatMap (linksOf travel)).filter (·.1 = (a, b)) = [] := by
  have hjoins {p : Partition α π} {l : (Int64 × Int64) × Network.Link α}
      (hl : l ∈ (p.roads.flatMap (linksOf travel)).filter (·.1 = (a, b))) :
      ∃ r ∈ p.roads, Joins r a b := by
    obtain ⟨hl, hq⟩ := List.mem_filter.1 hl
    obtain ⟨r, hr, hl⟩ := List.mem_flatMap.1 hl
    exact ⟨r, hr, (mem_linksOf travel).1 ⟨l, hl, by simpa using hq⟩⟩
  refine pairwise_of_apart hnodup ?_
  intro p hp q hq hne l hl m hm
  obtain ⟨r, hr, hrj⟩ := hjoins hl
  obtain ⟨s, hs, hsj⟩ := hjoins hm
  exact ha.roads p q hp hq hne r hr s hs a b hrj hsj

/-- The rows of a junction come in one order when its partition is the only one that has any. -/
theorem junctions_eq_of_perm (h : ps.Perm ps') (hnodup : (ps.map (·.cell)).Nodup)
    (ha : Apart (· ∈ ps)) (id : Int64) : (ps.flatMap (·.junctions)).filter (·.id = id) =
      (ps'.flatMap (·.junctions)).filter (·.id = id) := by
  rw [List.filter_flatMap, List.filter_flatMap]
  exact flatMap_eq_of_perm h (pairwise_junctions hnodup ha id)

/-- So do the rows that make an edge. -/
theorem links_eq_of_perm (h : ps.Perm ps') (hnodup : (ps.map (·.cell)).Nodup) (ha : Apart (· ∈ ps))
    (a b : Int64) : ((ps.flatMap (·.roads)).flatMap (linksOf travel)).filter (·.1 = (a, b)) =
      ((ps'.flatMap (·.roads)).flatMap (linksOf travel)).filter (·.1 = (a, b)) := by
  rw [List.flatMap_assoc, List.flatMap_assoc, List.filter_flatMap, List.filter_flatMap]
  exact flatMap_eq_of_perm h (pairwise_links hnodup ha a b)

variable [Quantity α] {g g' : Network α π}

/-- Networks that have made the changes of the same partitions have one chart, if no two of these have
rows in common. -/
theorem alike_of_perm (hps : ps.Perm ps') (hnodup : (ps.map (·.cell)).Nodup) (ha : Apart (· ∈ ps))
    (h : MakesAll (ps.flatMap (changesOf travel)) .empty g)
    (h' : MakesAll (ps'.flatMap (changesOf travel)) .empty g') : Alike g g' := by
  have hg := h.grown .empty
  have hg' := h'.grown .empty
  refine ⟨hg.wellFormed, hg.classified, hg'.wellFormed, hg'.classified, ?_⟩
  have hchanges (c : Change α π) :
      c ∈ ps.flatMap (changesOf travel) ↔ c ∈ ps'.flatMap (changesOf travel) :=
    (hps.flatMap_right _).mem_iff
  have hknown : g.chart.known = g'.chart.known := by
    ext id
    rw [h.chart, h'.chart, mem_known_written, mem_known_written]
    simp only [hchanges]
  have hnamed : g.chart.named = g'.chart.named := by
    ext n
    rw [h.chart, h'.chart, mem_named_written, mem_named_written]
    simp only [hchanges]
  have hposition : g.chart.position = g'.chart.position := by
    funext id
    calc g.positionOf id = _ := h.lastWrites.position id
      _ = _ := by rw [junctions_eq_of_perm hps hnodup ha id]
      _ = g'.positionOf id := (h'.lastWrites.position id).symm
  have hlink : g.chart.link = g'.chart.link := by
    funext q
    calc g.linkOf q.1 q.2 = _ := h.lastWrites.link q.1 q.2
      _ = _ := by rw [links_eq_of_perm hps hnodup ha q.1 q.2]
      _ = g'.linkOf q.1 q.2 := (h'.lastWrites.link q.1 q.2).symm
  calc g.chart = ⟨g.chart.known, g.chart.named, g.chart.position, g.chart.link⟩ := rfl
    _ = ⟨g'.chart.known, g'.chart.named, g'.chart.position, g'.chart.link⟩ := by
      rw [hknown, hnamed, hposition, hlink]
    _ = g'.chart := rfl

end Perm

/-- Networks that have made the changes of the same partitions have one shape. -/
theorem sameShape_of_perm {travel : Travel Float} {ps ps' : List (Partition Float π)}
    {g g' : Network Float π} (hps : ps.Perm ps')
    (h : MakesAll (ps.flatMap (changesOf travel)) .empty g)
    (h' : MakesAll (ps'.flatMap (changesOf travel)) .empty g') : SameShape g g' := by
  have hknown (id : Int64) : (g.lookup id).isSome ↔ (g'.lookup id).isSome := by
    rw [h.lastWrites.known, h'.lastWrites.known]
    simp only [hps.mem_iff]
  have hlinked (a b : Int64) : (g.linkOf a b).isSome ↔ (g'.linkOf a b).isSome := by
    rw [h.lastWrites.linked, h'.lastWrites.linked]
    simp only [hps.mem_iff]
  have hg := h.grown .empty
  have hg' := h'.grown .empty
  refine ⟨hknown, ?_, hlinked, hg.nodeCount_eq hg' hknown, hg.edgeCount_eq hg' hlinked, ?_⟩
  · intro id
    rw [h.lastWrites.placed, h'.lastWrites.placed]
    simp only [hps.mem_iff]
  · have htop := h.isTop_append .nil
    have htop' := h'.isTop_append .nil
    have hspeeds := ((hps.flatMap_right (changesOf travel)).filterMap (·.speed?))
    exact htop.unique (htop'.of_mem_iff fun s => by simp [hspeeds.mem_iff])

/-! ## Runs of requests -/

/-- All requests succeed. -/
def Succeed [Quantity α] (available : CellSet) (travel : Travel α) (rs : List (Request ε α π)) : Prop :=
  ∀ earlier r, earlier ++ [r] <+: rs → ∃ report, answer available travel earlier r = .ok report

/-- A partition of a dataset whose cell is asked for by some requests. -/
structure Asked (c : Catalog) (disk : Disk) (keys : List CellSet) (p : Partition Float Point) : Prop where
  listed : c.cells.contains p.cell
  asked : ∃ k ∈ keys, k.contains p.cell
  read : c.read disk p.cell = .ok p

section Runs
variable {c : Catalog} {disk : Disk} {travel : Travel Float} {keys : List CellSet}

theorem Succeed.roomy [Quantity α] {available : CellSet} {travel : Travel α}
    {rs : List (Request ε α π)} (h : Succeed available travel rs) : Roomy available travel rs := by
  intro earlier r hp e he
  obtain ⟨report, ha⟩ := h earlier r hp
  rw [ha] at he
  cases he

/-- When all requests succeed, all that they ask for comes in. -/
theorem mem_loadOrder_iff (h : Succeed c.cells travel (keys.map fun k => requestTo c (disk, k)))
    {p : Partition Float Point} :
    p ∈ loadOrder c.cells (keys.map fun k => requestTo c (disk, k)) ↔ Asked c disk keys p := by
  constructor
  · intro hp
    obtain ⟨r, hr, hkeys, hlisted, hread⟩ := mem_loadOrder hp
    obtain ⟨k, hk, rfl⟩ := List.mem_map.1 hr
    exact ⟨hlisted, ⟨k, hk, hkeys⟩, hread⟩
  · rintro ⟨hlisted, ⟨k, hk, hcontains⟩, hread⟩
    obtain ⟨before, after, rfl⟩ := List.append_of_mem hk
    have hkept := kept h.roomy
    have hprefix : before.map (fun k => requestTo c (disk, k)) ++ [requestTo c (disk, k)] <+:
        (before ++ k :: after).map fun k => requestTo c (disk, k) := by
      rw [List.map_append, List.map_cons]
      exact ⟨after.map fun k => requestTo c (disk, k), by simp⟩
    obtain ⟨report, ha⟩ := h _ _ hprefix
    have hanswered := (hkept.answered _).2 ⟨_, _, report, hprefix, rfl, ha⟩
    have hloaded := hkept.complete _ hanswered p.cell (Std.TreeSet.mem_toList.2 hcontains) hlisted
    obtain ⟨q, hq, hcell⟩ := List.mem_map.1 ((hkept.loaded _).1 hloaded)
    obtain ⟨s, hs, -, -, hreadq⟩ := mem_loadOrder hq
    obtain ⟨k', -, rfl⟩ := List.mem_map.1 hs
    have hsame : c.read disk q.cell = .ok q := hreadq
    rw [hcell, hread] at hsame
    cases hsame
    exact hq

end Runs

/-- Requests that succeed and ask for the same partitions of a dataset leave networks of one shape,
however they are grouped and ordered. If no two of these partitions have rows in common, the networks
are the same up to the numbers of nodes and classes. -/
theorem load_order_irrelevant (c : Catalog) (disk : Disk) (speeds : Speed.Profile)
    (keys keys' : List CellSet)
    (hok : Succeed c.cells speeds.seconds (keys.map fun k => requestTo c (disk, k)))
    (hok' : Succeed c.cells speeds.seconds (keys'.map fun k => requestTo c (disk, k)))
    (hsame : ∀ cell, c.cells.contains cell →
      ((∃ k ∈ keys, k.contains cell) ↔ ∃ k ∈ keys', k.contains cell)) :
    let g := (held c.cells speeds.seconds (keys.map fun k => requestTo c (disk, k))).network
    let g' := (held c.cells speeds.seconds (keys'.map fun k => requestTo c (disk, k))).network
    SameShape g g' ∧
      (Apart (Asked c disk keys) → ∃ node cls, Renames node cls g g') := by
  intro g g'
  have hmade := (kept hok.roomy).made
  have hmade' := (kept hok'.roomy).made
  have hnodup := nodup_loadOrder c.cells (keys.map fun k => requestTo c (disk, k))
  have hnodup' := nodup_loadOrder c.cells (keys'.map fun k => requestTo c (disk, k))
  have hperm : (loadOrder c.cells (keys.map fun k => requestTo c (disk, k))).Perm
      (loadOrder c.cells (keys'.map fun k => requestTo c (disk, k))) := by
    refine (List.perm_ext_iff_of_nodup hnodup.of_map hnodup'.of_map).2 fun p => ?_
    rw [mem_loadOrder_iff hok, mem_loadOrder_iff hok']
    constructor
    · intro h
      exact ⟨h.listed, (hsame _ h.listed).1 h.asked, h.read⟩
    · intro h
      exact ⟨h.listed, (hsame _ h.listed).2 h.asked, h.read⟩
  refine ⟨sameShape_of_perm hperm hmade hmade', fun hapart => ?_⟩
  have hall : (fun p => p ∈ loadOrder c.cells (keys.map fun k => requestTo c (disk, k))) =
      Asked c disk keys := funext fun p => propext (mem_loadOrder_iff hok)
  exact ⟨_, _, (alike_of_perm hperm hnodup (hall ▸ hapart) hmade hmade').renames⟩

namespace Pair

/-- A partition that has no row in common with the other one. -/
def calmPart : Partition Float Point :=
  ⟨east, [⟨2, ⟨0.25, 0.75⟩⟩], [⟨2, 3, 80.0, "service", none, true⟩]⟩

theorem read_calm {cell : Cell} (hcell : catalog.cells.contains cell) :
    catalog.read (files westPart calmPart) cell = .ok (if cell = west then westPart else calmPart) :=
  read_of_listed rfl rfl (by decide +kernel) (by decide +kernel) hcell

theorem succeed_calm (travel : Travel Float) (keys : List CellSet) :
    Succeed catalog.cells travel
      (keys.map fun k => requestTo catalog (files westPart calmPart, k)) := by
  have hlength : ([westPart, calmPart].flatMap (changesOf travel)).length = 6 := rfl
  have hroomy : Roomy catalog.cells travel
      (keys.map fun k => requestTo catalog (files westPart calmPart, k)) := by
    refine roomy_files rfl rfl (by decide +kernel) (by decide +kernel) ?_ keys
    rw [hlength]
    exact ⟨by decide, by decide⟩
  intro earlier r hp
  refine answer_ok (hroomy earlier r hp) ?_
  intro cell hpending
  obtain ⟨-, hcell, -⟩ := Holding.mem_pending.1 hpending
  obtain ⟨k, -, rfl⟩ := List.mem_map.1 (hp.subset (List.mem_append_right _ (List.mem_singleton_self r)))
  exact ⟨_, read_calm hcell⟩

theorem apart_calm (keys : List CellSet) :
    Apart (Asked catalog (files westPart calmPart) keys) := by
  refine Apart.of_two (x := westPart) (y := calmPart) ?_ (by decide +kernel) ?_
  · intro p hp
    have hread := hp.read
    rw [read_calm hp.listed] at hread
    split at hread
    · cases hread
      exact .inl rfl
    · cases hread
      exact .inr rfl
  · simp only [westPart, calmPart, List.mem_singleton, Joins]
    rintro _ rfl _ rfl a b (⟨rfl, rfl⟩ | ⟨rfl, rfl, -⟩) <;> decide +kernel

theorem load_order_irrelevant_calm :
    let requests := fun keys : List CellSet =>
      keys.map fun k => requestTo catalog (files westPart calmPart, k)
    let network := fun keys : List CellSet =>
      (held catalog.cells Speed.Profile.standard.seconds (requests keys)).network
    let one := [(∅ : CellSet).insert east, (∅ : CellSet).insert west]
    Succeed catalog.cells Speed.Profile.standard.seconds (requests one) ∧
    Succeed catalog.cells Speed.Profile.standard.seconds (requests [catalog.cells]) ∧
    (∀ cell, catalog.cells.contains cell →
      ((∃ k ∈ one, k.contains cell) ↔ ∃ k ∈ [catalog.cells], k.contains cell)) ∧
    Apart (Asked catalog (files westPart calmPart) one) ∧
    SameShape (network one) (network [catalog.cells]) ∧
    ∃ node cls, Renames node cls (network one) (network [catalog.cells]) := by
  intro requests network one
  have hsame : ∀ cell, catalog.cells.contains cell →
      ((∃ k ∈ one, k.contains cell) ↔ ∃ k ∈ [catalog.cells], k.contains cell) := by
    intro cell hcell
    have hone : ∃ k ∈ one, k.contains cell := by
      rcases mem_cells.1 hcell with rfl | rfl
      · exact ⟨(∅ : CellSet).insert west, by simp [one], by simp⟩
      · exact ⟨(∅ : CellSet).insert east, by simp [one], by simp⟩
    exact ⟨fun _ => ⟨_, List.mem_singleton_self _, hcell⟩, fun _ => hone⟩
  have hok := succeed_calm Speed.Profile.standard.seconds
  have h := load_order_irrelevant catalog (files westPart calmPart) .standard one [catalog.cells]
    (hok one) (hok _) hsame
  exact ⟨hok one, hok _, hsame, apart_calm one, h.1, h.2 (apart_calm one)⟩

end Pair

end RoadRouting.Trip
