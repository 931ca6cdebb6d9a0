import RoadRouting.Proofs.Network.Containment
import RoadRouting.Proofs.Trip.AnyOrder
import RoadRouting.Proofs.Trip.Integrity

/-!
# Planners of one dataset

As long as its network is never full, a planner that loads from one dataset holds some partitions of
it, each once (`Steady.comprises`). If no two partitions have rows in common, the network says what the
only partition with a row says. So of two planners the one that has loaded more says all that the other
one says (`Ahead.within`), and requests keep them in that relation (`Ahead.ensure`).
-/

namespace RoadRouting.Trip
set_option autoImplicit false
open Dataset (Catalog Partition Road)
open Grid (Cell CellSet)
open Network (Quantity Within)
open Network.Cost (IsWeight)

variable {α : Type}

/-- A reader gives nothing but what another one gives; it may fail where that one does not. -/
def Follows (read r : Reader α) : Prop := ∀ cell part, r cell = .ok part → read cell = .ok part

/-- A partition of a dataset that can be read. -/
def Offers (c : Catalog) (read : Reader α) (part : Partition α Point) : Prop :=
  c.cells.contains part.cell ∧ read part.cell = .ok part

/-- What is read for a cell is the partition of that cell, and no two partitions have rows in common. -/
structure Divided (c : Catalog) (read : Reader α) : Prop where
  labelled : ∀ cell part, read cell = .ok part → part.cell = cell
  apart : Apart (Offers c read)

/-- A request met a full network. -/
def IsFull {β : Type} (result : Except Fault β) : Prop := ∃ e, result = .error (.full e)

/-- What is held are some partitions of a dataset, each once. -/
structure Comprises (c : Catalog) (travel : Travel α) (read : Reader α) (h : Holding α Point)
    (ps : List (Partition α Point)) : Prop where
  writes : LastWrites travel ps h.network
  loaded : ∀ cell, h.loader.loaded.contains cell ↔ cell ∈ ps.map (·.cell)
  nodup : (ps.map (·.cell)).Nodup
  offered : ∀ part ∈ ps, Offers c read part

theorem Follows.refl (read : Reader α) : Follows read read := fun _ _ h => h

theorem not_isFull_ok {β : Type} (x : β) : ¬ IsFull (.ok x) := by
  rintro ⟨e, he⟩
  cases he

/-- What is full does not depend on what was asked for. -/
theorem IsFull.of_error {β γ : Type} {f : Fault} (h : IsFull (.error f : Except Fault β)) :
    IsFull (.error f : Except Fault γ) := by
  obtain ⟨e, he⟩ := h
  cases he
  exact ⟨e, rfl⟩

/-! ## What is held of a dataset -/

namespace Comprises
variable {c : Catalog} {travel : Travel α} {read : Reader α} {h h' : Holding α Point}
  {ps ps' : List (Partition α Point)}

theorem mem_of_loaded (hc : Comprises c travel read h ps) {part : Partition α Point}
    (hp : Offers c read part) (hl : h.loader.loaded.contains part.cell) : part ∈ ps := by
  obtain ⟨q, hq, hcell⟩ := List.mem_map.1 ((hc.loaded _).1 hl)
  have hread := (hc.offered q hq).2
  rw [hcell, hp.2] at hread
  cases hread
  exact hq

/-- A cell that is loaded is one of the dataset, and can be read. -/
theorem exists_offered (hc : Comprises c travel read h ps) {cell : Cell}
    (hl : h.loader.loaded.contains cell) : ∃ part, part.cell = cell ∧ Offers c read part := by
  obtain ⟨part, hp, hcell⟩ := List.mem_map.1 ((hc.loaded cell).1 hl)
  exact ⟨part, hcell, hc.offered part hp⟩

/-- A node has a position when a partition that is loaded has a row for it. -/
theorem placed (hc : Comprises c travel read h ps) (id : Int64) :
    (h.network.positionOf id).isSome ↔ ∃ part, Offers c read part ∧
      h.loader.loaded.contains part.cell ∧ ∃ j ∈ part.junctions, j.id = id := by
  rw [hc.writes.placed]
  constructor
  · rintro ⟨part, hp, hrow⟩
    exact ⟨part, hc.offered part hp, (hc.loaded _).2 (List.mem_map_of_mem hp), hrow⟩
  · rintro ⟨part, hp, hl, hrow⟩
    exact ⟨part, hc.mem_of_loaded hp hl, hrow⟩

/-- What more has been loaded of says all that less has been loaded of says. -/
theorem within (hc : Comprises c travel read h ps) (hc' : Comprises c travel read h' ps')
    (ha : Apart (Offers c read))
    (hl : ∀ cell, h.loader.loaded.contains cell → h'.loader.loaded.contains cell) :
    Within h.network h'.network := by
  have hsub : ps ⊆ ps' := by
    intro part hp
    exact hc'.mem_of_loaded (hc.offered part hp) (hl _ ((hc.loaded _).2 (List.mem_map_of_mem hp)))
  have hapart : Apart (· ∈ ps') := by
    constructor
    · intro p q hp hq
      exact ha.junctions p q (hc'.offered p hp) (hc'.offered q hq)
    · intro p q hp hq
      exact ha.roads p q (hc'.offered p hp) (hc'.offered q hq)
  constructor
  · intro id position hpos
    have hrows := hc.writes.position id
    rw [hpos, List.filter_flatMap] at hrows
    have hne : ps.flatMap (fun p => p.junctions.filter (·.id = id)) ≠ [] := by
      intro hnil
      rw [hnil] at hrows
      cases hrows
    rw [hc'.writes.position, List.filter_flatMap, flatMap_eq_of_subset hc.nodup.of_map hsub
      (pairwise_junctions hc'.nodup hapart id) hne, hrows]
  · intro a b l hlink
    have hrows := hc.writes.link a b
    rw [hlink, List.flatMap_assoc, List.filter_flatMap] at hrows
    have hne : ps.flatMap (fun p => (p.roads.flatMap (linksOf travel)).filter (·.1 = (a, b))) ≠ [] := by
      intro hnil
      rw [hnil] at hrows
      cases hrows
    rw [hc'.writes.link, List.flatMap_assoc, List.filter_flatMap, flatMap_eq_of_subset hc.nodup.of_map
      hsub (pairwise_links hc'.nodup hapart a b) hne, hrows]

/-- Edges cost what roads cost. -/
theorem weighted [Network.Cost α] (hc : Comprises c travel read h ps) {objective : Objective}
    (hw : ∀ part, Offers c read part → ∀ r ∈ part.roads, IsWeight (roadCost travel objective r)) :
    h.network.Weighted objective := by
  intro v e he
  obtain ⟨part, hp, r, hr, hcost⟩ := hc.writes.exists_road he
  rw [hcost]
  exact hw part (hc.offered part hp) r hr

end Comprises

namespace Planner
variable [Quantity α] {p₀ p p' q q' : Planner α} {read r : Reader α} {keys : CellSet}

/-! ## Planners whose network is never full -/

/-- The partition of a cell is loaded. -/
def Loaded (p : Planner α) (cell : Cell) : Prop := p.holding.loader.loaded.contains cell

/-- A planner that came from another one by loading from a dataset, and holds what some requests leave
of which none met a full network. -/
structure Steady (p₀ : Planner α) (read : Reader α) (p : Planner α) : Prop where
  moves : Moves (Follows read) p₀ p
  asked : ∃ rs : List (Request Dataset.Fault α Point), (∀ r ∈ rs, Follows read r.read) ∧
    Roomy p₀.catalog.cells p₀.travel rs ∧ p.holding = held p₀.catalog.cells p₀.travel rs

/-- What a request does to what is loaded. -/
structure Supplied (p : Planner α) (keys : CellSet) (result : Except Fault Report) (p' : Planner α) :
    Prop where
  keeps : ∀ cell, p.Loaded cell → p'.Loaded cell
  only : ∀ cell, p'.Loaded cell → p.Loaded cell ∨ keys.contains cell
  complete : ∀ report, result = .ok report → ∀ cell, keys.contains cell →
    p.catalog.cells.contains cell → p'.Loaded cell

/-- Of two planners of one dataset the second has loaded what the first has, and maybe more. -/
structure Ahead (p₀ : Planner α) (read : Reader α) (p q : Planner α) : Prop where
  behind : p₀.Steady read p
  steady : p₀.Steady read q
  loaded : ∀ cell, p.Loaded cell → q.Loaded cell

theorem Steady.start (hf : p₀.Fresh) : p₀.Steady read p₀ where
  moves := .refl
  asked := by
    refine ⟨[], nofun, ?_, hf.holding⟩
    intro earlier r hp
    simp at hp

theorem Steady.comprises (h : p₀.Steady read p) :
    ∃ ps, Comprises p₀.catalog p₀.travel read p.holding ps := by
  obtain ⟨rs, hfollows, hroom, hheld⟩ := h.asked
  have hkept := kept hroom
  refine ⟨loadOrder p₀.catalog.cells rs, ?_⟩
  constructor
  · rw [hheld]
    exact hkept.made.lastWrites
  · rw [hheld]
    exact hkept.loaded
  · exact nodup_loadOrder _ rs
  · intro part hp
    obtain ⟨r, hr, -, hlisted, hread⟩ := mem_loadOrder hp
    exact ⟨hlisted, hfollows r hr _ _ hread⟩

/-- A planner meets a full network when its holding does. -/
theorem isFull_ensure_iff {rs : List (Request Dataset.Fault α Point)} (hs : p₀.Same p)
    (hheld : p.holding = held p₀.catalog.cells p₀.travel rs) (r : Request Dataset.Fault α Point) :
    IsFull (p.ensure r.read r.cells).1 ↔
      ∃ e, answer p₀.catalog.cells p₀.travel rs r = .error (.full e) := by
  rw [ensure_eq hs hheld]
  cases answer p₀.catalog.cells p₀.travel rs r with
  | ok report => exact ⟨fun h => absurd h (not_isFull_ok report), nofun⟩
  | error f =>
    cases f with
    | unreadable fault => exact ⟨nofun, nofun⟩
    | full e => exact ⟨fun _ => ⟨e, rfl⟩, fun _ => ⟨e, rfl⟩⟩

/-- A request that meets no full network is one more of those that were asked. -/
theorem Steady.exists_request (hd : Divided p₀.catalog read) (h : p₀.Steady read p)
    (hr : Follows read r) {result : Except Fault Report} (he : p.ensure r keys = (result, p'))
    (hroom : ¬ IsFull result) : ∃ (rs : List (Request Dataset.Fault α Point)) (request : _),
      request.read = r ∧ request.cells = keys ∧ (∀ s ∈ rs ++ [request], Follows read s.read) ∧
      Roomy p₀.catalog.cells p₀.travel (rs ++ [request]) ∧
      p.holding = held p₀.catalog.cells p₀.travel rs ∧
      p'.holding = held p₀.catalog.cells p₀.travel (rs ++ [request]) ∧
      result = (answer p₀.catalog.cells p₀.travel rs request).mapError Fault.ofLoad := by
  obtain ⟨rs, hfollows, hroomy, hheld⟩ := h.asked
  let request : Request Dataset.Fault α Point :=
    ⟨r, keys, fun cell part hpart => hd.labelled cell part (hr cell part hpart)⟩
  have hfull : IsFull (p.ensure r keys).1 ↔ _ := isFull_ensure_iff h.moves.same hheld request
  have hensure : p.ensure r keys = _ := ensure_eq h.moves.same hheld request
  rw [he] at hfull hensure
  rw [Prod.mk.injEq] at hensure
  obtain ⟨hresult, hp'⟩ := hensure
  refine ⟨rs, request, rfl, rfl, ?_, ?_, hheld, by rw [hp'], hresult⟩
  · intro s hs
    rcases List.mem_append.1 hs with hs | hs
    · exact hfollows s hs
    · rw [List.mem_singleton.1 hs]
      exact hr
  · intro earlier s hp
    rcases List.prefix_concat_iff.1 hp with heq | hp
    · obtain ⟨rfl, hlast⟩ := List.append_inj' heq rfl
      obtain rfl := List.singleton_inj.1 hlast
      intro e hanswer
      exact hroom (hfull.2 ⟨e, hanswer⟩)
    · exact hroomy earlier s hp

/-- A request that meets no full network keeps a planner steady. -/
theorem Steady.ensure (hd : Divided p₀.catalog read) (h : p₀.Steady read p) (hr : Follows read r)
    {result : Except Fault Report} (he : p.ensure r keys = (result, p')) (hroom : ¬ IsFull result) :
    p₀.Steady read p' ∧ p.Supplied keys result p' := by
  have hmoves : Moves (Follows read) p₀ p' := h.moves.trans (moves_of_ensure hr he)
  obtain ⟨rs, request, -, rfl, hfollows, hroomy, hheld, hheld', rfl⟩ :=
    h.exists_request hd hr he hroom
  refine ⟨⟨hmoves, rs ++ [request], hfollows, hroomy, hheld'⟩, ?_⟩
  have hkept := kept (hroomy.before (List.prefix_append rs [request]))
  obtain ⟨ps, hadds⟩ := hkept.adds (hroomy rs request (List.prefix_refl _))
  have hloaded (cell : Cell) : p'.Loaded cell ↔ p.Loaded cell ∨ cell ∈ ps.map (·.cell) := by
    unfold Loaded
    rw [hheld', hadds.loaded, ← hheld]
  constructor
  · intro cell hcell
    exact (hloaded cell).2 (.inl hcell)
  · intro cell hcell
    refine ((hloaded cell).1 hcell).imp_right fun hnew => ?_
    obtain ⟨part, hp, rfl⟩ := List.mem_map.1 hnew
    rw [← hadds.added] at hp
    exact Std.TreeSet.mem_toList.1 (List.mem_filter.1 (mem_additions hp).1).1
  · intro report hok cell hcell hlisted
    show p'.holding.loader.loaded.contains cell
    rw [hheld']
    refine hadds.complete ?_ cell (Std.TreeSet.mem_toList.2 hcell) (h.moves.same.catalog ▸ hlisted)
    cases ha : answer p₀.catalog.cells p₀.travel rs request with
    | ok report => exact ⟨report, rfl⟩
    | error f =>
      rw [ha] at hok
      cases hok

/-- A request succeeds when all that it asks for can be read. -/
theorem Steady.ensure_ok (hd : Divided p₀.catalog read) (h : p₀.Steady read p)
    {result : Except Fault Report} (he : p.ensure read keys = (result, p')) (hroom : ¬ IsFull result)
    (hread : ∀ cell, keys.contains cell → p₀.catalog.cells.contains cell →
      ∃ part, read cell = .ok part) : ∃ report, result = .ok report := by
  obtain ⟨rs, request, rfl, rfl, -, hroomy, -, -, rfl⟩ :=
    h.exists_request hd (.refl read) he hroom
  have hpending : ∀ cell ∈ (held p₀.catalog.cells p₀.travel rs).pending p₀.catalog.cells request.cells,
      ∃ part, request.read cell = .ok part := by
    intro cell hcell
    obtain ⟨hasked, hlisted, -⟩ := Holding.mem_pending.1 hcell
    exact hread cell (Std.TreeSet.mem_toList.1 hasked) hlisted
  obtain ⟨report, hreport⟩ := answer_ok (hroomy rs request (List.prefix_refl _)) hpending
  exact ⟨report, by rw [hreport]; rfl⟩

theorem Steady.nearest (h : p₀.Steady read p) {point : Point} {radius : Float}
    {answer : Except Fault (Option Snap.Hit)} (hn : p.nearest point radius = (answer, p')) :
    p₀.Steady read p' ∧ ∀ cell, p'.Loaded cell ↔ p.Loaded cell := by
  have hholding : p'.holding = p.holding := (congrArg (·.2.holding) hn).symm
  refine ⟨⟨h.moves.trans (moves_of_nearest hn), hholding ▸ h.asked⟩, ?_⟩
  intro cell
  unfold Loaded
  rw [hholding]

/-! ## A planner that is ahead of another one -/

namespace Ahead

theorem within (hd : Divided p₀.catalog read) (h : p₀.Ahead read p q) :
    Within p.holding.network q.holding.network := by
  obtain ⟨ps, hps⟩ := h.behind.comprises
  obtain ⟨qs, hqs⟩ := h.steady.comprises
  exact hps.within hqs hd.apart h.loaded

/-- A request that succeeds for the planner behind succeeds for the one ahead, which stays ahead. -/
theorem ensure (hd : Divided p₀.catalog read) (h : p₀.Ahead read p q) {report : Report}
    {result : Except Fault Report} (hp : p.ensure read keys = (.ok report, p'))
    (hq : q.ensure read keys = (result, q')) (hroom : ¬ IsFull result) :
    (∃ report, result = .ok report) ∧ p₀.Ahead read p' q' := by
  obtain ⟨hsteady, hsupplied⟩ := h.behind.ensure hd (.refl read) hp (not_isFull_ok report)
  obtain ⟨hsteady', hsupplied'⟩ := h.steady.ensure hd (.refl read) hq hroom
  obtain ⟨ps, hps⟩ := hsteady.comprises
  have hread : ∀ cell, keys.contains cell → p₀.catalog.cells.contains cell →
      ∃ part, read cell = .ok part := by
    intro cell hcell hlisted
    rw [← h.behind.moves.same.catalog] at hlisted
    obtain ⟨part, rfl, -, hpart⟩ := hps.exists_offered (hsupplied.complete _ rfl cell hcell hlisted)
    exact ⟨part, hpart⟩
  obtain ⟨report', rfl⟩ := h.steady.ensure_ok hd hq hroom hread
  refine ⟨⟨report', rfl⟩, hsteady, hsteady', ?_⟩
  intro cell hcell
  rcases hsupplied.only cell hcell with hold | hkey
  · exact hsupplied'.keeps cell (h.loaded cell hold)
  · obtain ⟨part, rfl, hlisted, -⟩ := hps.exists_offered hcell
    rw [← h.steady.moves.same.catalog] at hlisted
    exact hsupplied'.complete report' rfl _ hkey hlisted

theorem nearest (h : p₀.Ahead read p q) {point point' : Point} {radius radius' : Float}
    {answer answer' : Except Fault (Option Snap.Hit)} (hp : p.nearest point radius = (answer, p'))
    (hq : q.nearest point' radius' = (answer', q')) : p₀.Ahead read p' q' := by
  obtain ⟨hsteady, hsame⟩ := h.behind.nearest hp
  obtain ⟨hsteady', hsame'⟩ := h.steady.nearest hq
  refine ⟨hsteady, hsteady', ?_⟩
  intro cell hcell
  exact (hsame' cell).2 (h.loaded cell ((hsame cell).1 hcell))

end Ahead
end Planner
end RoadRouting.Trip
