import RoadRouting.Proofs.Dataset.Decoding
import RoadRouting.Proofs.Trip.Corridors
import RoadRouting.Proofs.Trip.LastWrites
import RoadRouting.Proofs.Trip.Runs
import RoadRouting.Trip.Startup

/-!
# Failed reads

All that a request needs is read before anything is merged, and what was answered before is loaded
(`Holding.Complete`). So a request that needs a partition which cannot be decoded fails, however many of
its partitions can, and leaves network and memories as they were: once the file is repaired, it is as if
nothing had been asked (`Untouched`). A route through such a partition fails with the same fault
(`failed_reads_untouched`).
-/

namespace RoadRouting.Trip
set_option autoImplicit false
open Dataset (Catalog Partition)
open Grid (Cell CellSet)
open Network (Quantity)
open Store (Disk)

variable {ε α π : Type}

/-- What was answered is loaded, as far as there are partitions. -/
structure Holding.Complete [Quantity α] (available : CellSet) (h : Holding α π) : Prop where
  grown : h.network.Grown
  answered : ∀ request, h.loader.answered.contains request → ∀ c ∈ request, available.contains c →
    h.loader.loaded.contains c

/-- A partition of the catalog that is asked for and not loaded has a file that cannot be decoded. -/
structure Blocks (c : Catalog) (disk : Disk) (keys : CellSet) (h : Holding α Point) (cell : Cell) :
    Prop where
  asked : keys.contains cell
  listed : c.cells.contains cell
  new : ¬ h.loader.loaded.contains cell
  unreadable : c.Unreadable disk cell

/-- A request after others fails because of a partition that blocks it, and changes nothing. Whatever
is asked later, and be it the same once the files are repaired, is answered as if the request had not
been made; and it then succeeds if nothing blocks it and the network has room. -/
structure Untouched (c : Catalog) (travel : Travel Float) (calls : List (Disk × CellSet))
    (call : Disk × CellSet) : Prop where
  fails : ∃ cell f, Blocks c call.1 call.2 (held c.cells travel (calls.map (requestTo c))) cell ∧
    c.read call.1 cell = .error f ∧
    answer c.cells travel (calls.map (requestTo c)) (requestTo c call) = .error (.unreadable f)
  same : held c.cells travel ((calls ++ [call]).map (requestTo c)) =
    held c.cells travel (calls.map (requestTo c))
  later : ∀ more next,
    held c.cells travel ((calls ++ call :: more).map (requestTo c)) =
        held c.cells travel ((calls ++ more).map (requestTo c)) ∧
      answer c.cells travel ((calls ++ call :: more).map (requestTo c)) (requestTo c next) =
        answer c.cells travel ((calls ++ more).map (requestTo c)) (requestTo c next)
  repaired : ∀ disk,
    (∀ cell, ¬ Blocks c disk call.2 (held c.cells travel (calls.map (requestTo c))) cell) →
    (∀ e, answer c.cells travel (calls.map (requestTo c)) (requestTo c (disk, call.2)) ≠
      .error (.full e)) →
    ∃ report, answer c.cells travel ((calls ++ [call]).map (requestTo c))
      (requestTo c (disk, call.2)) = .ok report

/-! ## What is answered is loaded -/

namespace Holding.Complete
variable [Quantity α] {h : Holding α π} {supply : Supply ε α π} {keys : CellSet}

theorem empty (available : CellSet) : Complete available (Holding.empty : Holding α π) where
  grown := .empty
  answered request hr := by simp [Holding.empty] at hr

/-- A request that succeeds loads all that it asks for, and one that fails is not remembered. -/
theorem ensure (hc : Complete supply.available h)
    (hlabelled : ∀ c p, supply.read c = .ok p → p.cell = c) (keys : CellSet) :
    Complete supply.available (h.ensure supply keys).2 where
  grown := (ensure_fills (P := fun _ _ => True) hc.grown fun _ _ _ _ _ _ => trivial).grown
  answered := by
    have hmerge {ps : List (Partition α π)} {r : Except Network.Full Tally} {h' : Holding α π}
        (hm : merge supply.travel ps h .none = (r, h')) : Merged (fun _ _ => True) ps h h' ∧
          ∀ tally, r = .ok tally → ∀ p ∈ ps, h'.loader.loaded.contains p.cell := by
      have hboth : Merged (fun _ _ => True) ps h (merge supply.travel ps h .none).2 ∧ _ :=
        merge_merged supply.travel hc.grown (fun _ _ _ _ => trivial) .none
      rwa [hm] at hboth
    obtain ⟨ps, hend⟩ := ensure_ensured h supply keys
    generalize (h.ensure supply keys).1 = answer at hend
    generalize (h.ensure supply keys).2 = h' at hend ⊢
    cases hend with
    | repeated _ => exact hc.answered
    | unreadable _ _ => exact hc.answered
    | full _ _ hm =>
      obtain ⟨m, -⟩ := hmerge hm
      intro request hr c hmem hlisted
      rw [m.answered] at hr
      exact m.keeps c (hc.answered request hr c hmem hlisted)
    | merged _ hps hm =>
      obtain ⟨m, hall⟩ := hmerge hm
      intro request hr c hmem hlisted
      rw [Std.HashSet.contains_insert, Bool.or_eq_true, m.answered] at hr
      rcases hr with hr | hr
      · obtain rfl := eq_of_beq hr
        exact m.contains hps (fun c p _ => hlabelled c p) (hall _ rfl) c hmem hlisted
      · exact m.keeps c (hc.answered request hr c hmem hlisted)

/-- A request fails on a partition that it needs and that cannot be read, and leaves all as it was. -/
theorem unreadable (hc : Complete supply.available h) {cell : Cell} {f : ε}
    (hcell : cell ∈ h.pending supply.available keys) (hf : supply.read cell = .error f) :
    ∃ c ∈ h.pending supply.available keys, ∃ e, supply.read c = .error e ∧
      h.ensure supply keys = (.error (.unreadable e), h) := by
  obtain ⟨hmem, hlisted, hnew⟩ := mem_pending.1 hcell
  have hfirst : ¬ h.loader.answered.contains keys.toList :=
    fun ha => hnew (hc.answered _ ha cell hmem hlisted)
  obtain ⟨c, hc', e, he, hm⟩ := exists_mapM_error hcell hf
  refine ⟨c, hc', e, he, ?_⟩
  unfold Holding.ensure
  simp only [hfirst, hm]
  rfl

end Holding.Complete

/-! ## Requests -/

theorem blocks_iff {c : Catalog} {disk : Disk} {keys : CellSet} {h : Holding α Point} {cell : Cell} :
    Blocks c disk keys h cell ↔
      cell ∈ h.pending c.cells keys ∧ ∃ f, c.read disk cell = .error f := by
  rw [Holding.mem_pending, Catalog.read_error_iff, Std.TreeSet.mem_toList]
  exact ⟨fun h => ⟨⟨h.asked, h.listed, h.new⟩, h.unreadable⟩, fun h => ⟨h.1.1, h.1.2.1, h.1.2.2, h.2⟩⟩

section Requests
variable [Quantity α] {available : CellSet} {travel : Travel α}

theorem complete_held (available : CellSet) (travel : Travel α) (rs : List (Request ε α π)) :
    Holding.Complete available (held available travel rs) := by
  induction rs using List.reverseRecOn with
  | nil => exact .empty available
  | append_singleton rs r ih =>
    have hc : Holding.Complete (r.supply available travel).available _ := ih
    rw [held_snoc]
    exact hc.ensure r.labelled r.cells

theorem held_append_congr {rs rs' : List (Request ε α π)}
    (h : held available travel rs = held available travel rs') (more : List (Request ε α π)) :
    held available travel (rs ++ more) = held available travel (rs' ++ more) := by
  unfold held at h ⊢
  rw [List.foldl_append, List.foldl_append, h]

/-- A request that needs a cell that cannot be read fails, and nothing has changed. -/
theorem answer_unreadable {rs : List (Request ε α π)} {r : Request ε α π} {cell : Cell} {f : ε}
    (hcell : cell ∈ (held available travel rs).pending available r.cells)
    (hf : r.read cell = .error f) :
    ∃ c ∈ (held available travel rs).pending available r.cells, ∃ e, r.read c = .error e ∧
      answer available travel rs r = .error (.unreadable e) ∧
      held available travel (rs ++ [r]) = held available travel rs := by
  have hc : Holding.Complete (r.supply available travel).available (held available travel rs) :=
    complete_held available travel rs
  obtain ⟨c, hc', e, he, hensure⟩ := hc.unreadable hcell hf
  refine ⟨c, hc', e, he, congrArg Prod.fst hensure, ?_⟩
  rw [held_snoc]
  exact congrArg Prod.snd hensure

/-- A request that something blocks fails and changes nothing. -/
theorem untouched_of_blocks {c : Catalog} {travel : Travel Float} {calls : List (Disk × CellSet)}
    {call : Disk × CellSet} {cell : Cell}
    (hb : Blocks c call.1 call.2 (held c.cells travel (calls.map (requestTo c))) cell) :
    Untouched c travel calls call := by
  obtain ⟨hcell, f, hf⟩ := blocks_iff.1 hb
  obtain ⟨cell', hcell', f', hf', ha, hheld⟩ := answer_unreadable (r := requestTo c call) hcell hf
  have hsame : held c.cells travel ((calls ++ [call]).map (requestTo c)) =
      held c.cells travel (calls.map (requestTo c)) := by
    rw [List.map_append]
    exact hheld
  have hlater (more : List (Disk × CellSet)) :
      held c.cells travel ((calls ++ call :: more).map (requestTo c)) =
        held c.cells travel ((calls ++ more).map (requestTo c)) := by
    have happend := held_append_congr hsame (more.map (requestTo c))
    rwa [← List.map_append, ← List.map_append, ← List.append_cons] at happend
  refine ⟨⟨cell', f', blocks_iff.2 ⟨hcell', f', hf'⟩, hf', ha⟩, hsame, ?_, ?_⟩
  · intro more next
    unfold answer
    rw [hlater more]
    exact ⟨rfl, rfl⟩
  · intro disk hfree hroom
    unfold answer
    rw [hsame]
    refine answer_ok hroom fun c' hc' => ?_
    cases hread : c.read disk c' with
    | ok part => exact ⟨part, hread⟩
    | error e => exact absurd (blocks_iff.2 ⟨hc', e, hread⟩) (hfree c')

end Requests

/-! ## Planners -/

namespace Planner
variable [Quantity α] {p p' : Planner α} {read : Reader α}

theorem Moves.complete {ok : Reader α → Prop} (h : Moves ok p p')
    (hok : ∀ read, ok read → ∀ c part, read c = .ok part → part.cell = c)
    (hc : p.holding.Complete p.catalog.cells) : p'.holding.Complete p.catalog.cells := by
  induction h with
  | refl => exact hc
  | @ensure p₁ read keys hr hm ih =>
    rw [← hm.same.catalog] at ih ⊢
    have hc₁ : p₁.holding.Complete (p₁.supply read).available := ih
    exact hc₁.ensure (hok read hr) keys
  | nearest point radius _ ih => exact ih

/-- When the corridor cannot be loaded the route fails with the same fault. -/
theorem route_of_ensure_error {origin destination : Point} {f : Fault}
    (hcovered : (p.corridor origin destination).isEmpty = false)
    (he : p.ensure read (p.corridor origin destination).available = (.error f, p'))
    (objective : Objective) : p.route read origin destination objective =
      ⟨.error f, (p.select origin destination p.settings.corridorWidth).2, p'⟩ := by
  unfold route
  rcases hs : p.select origin destination p.settings.corridorWidth with ⟨corridor, w⟩
  obtain rfl : p.corridor origin destination = corridor := congrArg Prod.fst hs
  simp only [hcovered, he]
  rfl

/-- A route fails on its corridor when this has a partition that cannot be read, and leaves the planner
as it was. -/
theorem route_unreadable {origin destination : Point} {cell : Cell} {f : Dataset.Fault}
    (hc : p.holding.Complete p.catalog.cells)
    (hcell : cell ∈ p.holding.pending p.catalog.cells (p.corridor origin destination).available)
    (hf : read cell = .error f) (objective : Objective) :
    ∃ c ∈ p.holding.pending p.catalog.cells (p.corridor origin destination).available,
      ∃ e, read c = .error e ∧ p.route read origin destination objective =
        ⟨.error (.dataset e), (p.select origin destination p.settings.corridorWidth).2, p⟩ := by
  have hsupply : p.holding.Complete (p.supply read).available := hc
  obtain ⟨c, hc', e, he, hensure⟩ := hsupply.unreadable hcell hf
  refine ⟨c, hc', e, he, route_of_ensure_error ?_ ?_ objective⟩
  · have hthere := Std.TreeSet.mem_toList.1 (Holding.mem_pending.1 hcell).1
    exact Std.TreeSet.isEmpty_eq_false_of_contains hthere
  · unfold ensure
    rw [hensure]
    rfl

end Planner

/-- However a dataset is asked for, and whatever failed before, a request that something blocks fails and
changes nothing, and so does a route through such a corridor, for any planner that has been run. -/
theorem failed_reads_untouched (c : Catalog) (speeds : Speed.Profile) :
    (∀ (calls : List (Disk × CellSet)) (call : Disk × CellSet) (cell : Cell),
      Blocks c call.1 call.2 (held c.cells speeds.seconds (calls.map (requestTo c))) cell →
      Untouched c speeds.seconds calls call) ∧
    ∀ p₀ p : Planner Float, p₀.catalog = c → p₀.holding = .empty →
      Planner.Run (fun read => ∃ disk, read = c.read disk) p₀ p →
      ∀ (disk : Disk) (origin destination : Point) (objective : Objective) (cell : Cell),
        Blocks c disk (p.corridor origin destination).available p.holding cell →
        ∃ cell' f, Blocks c disk (p.corridor origin destination).available p.holding cell' ∧
          c.read disk cell' = .error f ∧
          p.route (c.read disk) origin destination objective =
            ⟨.error (.dataset f), (p.select origin destination p.settings.corridorWidth).2, p⟩ := by
  refine ⟨fun calls call cell hb => untouched_of_blocks hb, ?_⟩
  rintro p₀ p rfl hempty hrun disk origin destination objective cell hb
  have hc : p.holding.Complete p₀.catalog.cells := by
    refine hrun.moves.complete ?_ (hempty ▸ .empty _)
    rintro _ ⟨disk, rfl⟩ cell part hread
    exact (Catalog.read_eq_ok.1 hread).1
  obtain ⟨hcell, f, hf⟩ := blocks_iff.1 hb
  rw [← hrun.moves.same.catalog] at hc hcell hf ⊢
  obtain ⟨cell', hcell', f', hf', hroute⟩ := Planner.route_unreadable hc hcell hf objective
  exact ⟨cell', f', blocks_iff.2 ⟨hcell', f', hf'⟩, hf', hroute⟩

/-! ## A file that is no table -/

namespace Pair

/-- What is asked for before the file breaks. -/
def earlier : List (Disk × CellSet) := [(files westPart eastPart, (∅ : CellSet).insert east)]

/-- The western partition cannot be read any more, and the eastern one is loaded. -/
theorem blocks_west (travel : Travel Float) : Blocks catalog broken catalog.cells
    (held catalog.cells travel (earlier.map (requestTo catalog))) west := by
  have hlisted : catalog.cells.contains west := mem_cells.2 (.inl rfl)
  refine ⟨hlisted, hlisted, ?_, Catalog.read_error_iff.1 ⟨_, read_broken⟩⟩
  have hroom : Roomy catalog.cells travel (earlier.map (requestTo catalog)) :=
    (roomy_calls travel).before ((List.prefix_append earlier _).map _)
  rw [(kept hroom).loaded]
  intro hmem
  obtain ⟨p, hp, hwest⟩ := List.mem_map.1 hmem
  obtain ⟨r, hr, hasked, -, -⟩ := mem_loadOrder hp
  obtain rfl := List.mem_singleton.1 hr
  have heast : p.cell ∈ ((∅ : CellSet).insert east).toList := Std.TreeSet.mem_toList.2 hasked
  rw [toList_east, List.mem_singleton, hwest] at heast
  exact west_ne_east heast

/-- The dataset of one cell, whose file of roads is no table. -/
def torn : Disk :=
  put ((Store.Files.empty.put ["nodes_h3_0"] .directory).put ["edges_h3_0"] .directory)
    "edges_h3_0" home (.text "")

/-- A planner of which nothing has been asked. -/
def homePlanner : Planner Float :=
  planner .standard homeCatalog (.ofPacked [] ⟨1, 0, 1, 0, 1, 0⟩ ⟨10, 10, 6⟩) none

theorem blocks_home : Blocks homeCatalog torn
    (homePlanner.corridor ⟨0.5, 0.5⟩ ⟨0.5, 0.5⟩).available homePlanner.holding home := by
  have hvalid : (⟨0.5, 0.5⟩ : Point).isValid := by decide +kernel
  have hlisted : homeCatalog.cells.contains home := by simp [homeCatalog]
  have hdirectories : torn.hasDirectory ["nodes_h3_0"] ∧ torn.hasDirectory ["edges_h3_0"] := by
    simp [torn, put, Store.Files.hasDirectory, Store.Files.at?_put]
  have hitem : torn.item? (homeCatalog.roadFile home) = some (.file (.text "")) := by
    have hfile : homeCatalog.roadFile home = catalog.roadFile home := by
      simp only [Catalog.roadFile, homeCatalog, catalog, Catalog.ofCells]
    rw [hfile, (item?_table hdirectories.1 hdirectories.2 home).2]
    simp [torn, put, Store.Files.at?_put]
  have hnotable : ∀ t, Store.Document.text "" ≠ .table t := by
    intro t h
    cases h
  refine ⟨?_, hlisted, ?_, .inr ⟨.text "", ?_, .noTable hnotable⟩⟩
  · exact homePlanner.contains_corridor hvalid hvalid containing_home hlisted
  · simp [homePlanner, planner, Holding.empty]
  · simp [Store.Files.read?, hitem]

theorem failed_reads_untouched_pair :
    Blocks catalog broken catalog.cells
        (held catalog.cells Speed.Profile.standard.seconds (earlier.map (requestTo catalog))) west ∧
      Untouched catalog Speed.Profile.standard.seconds earlier (broken, catalog.cells) ∧
    Blocks homeCatalog torn (homePlanner.corridor ⟨0.5, 0.5⟩ ⟨0.5, 0.5⟩).available
        homePlanner.holding home ∧
      ∃ f, homePlanner.route (homeCatalog.read torn) ⟨0.5, 0.5⟩ ⟨0.5, 0.5⟩ .time =
        ⟨.error (.dataset f), (homePlanner.select ⟨0.5, 0.5⟩ ⟨0.5, 0.5⟩
          homePlanner.settings.corridorWidth).2, homePlanner⟩ := by
  obtain ⟨-, f, -, -, hroute⟩ := (failed_reads_untouched homeCatalog .standard).2 homePlanner homePlanner
    rfl rfl .start torn ⟨0.5, 0.5⟩ ⟨0.5, 0.5⟩ .time home blocks_home
  exact ⟨blocks_west _, (failed_reads_untouched catalog .standard).1 earlier _ west (blocks_west _),
    blocks_home, f, hroute⟩

end Pair
end RoadRouting.Trip
