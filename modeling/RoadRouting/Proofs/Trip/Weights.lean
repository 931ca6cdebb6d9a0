import RoadRouting.Proofs.Dataset.Decoding
import RoadRouting.Proofs.Speed.Plausible
import RoadRouting.Proofs.Trip.Consistency
import RoadRouting.Proofs.Trip.LastWrites

/-!
# Edges are weights

An edge has the length of a road that was read, and the time that the speed on this road makes of it. So
whatever holds of the lengths and times of all roads holds of all edges (`Network.Bears`), in every
state that requests or the work of a planner lead to, also when they fail. A road that is read has a
length, and the speed on it is plausible; so the costs of all edges can be searched
(`edges_are_weights`).
-/

namespace RoadRouting
set_option autoImplicit false

variable {ε α π : Type}

namespace Network

/-- The length and the time of each edge go together in some way. -/
def Bears (Q : α → α → Prop) (g : Network α π) : Prop := ∀ v, ∀ e ∈ g.out v, Q e.length e.travel

variable {Q : α → α → Prop} {g : Network α π}

theorem Bears.empty [Cost α] : (Network.empty : Network α π).Bears Q := by
  intro v e he
  simp [out, node?, Network.empty] at he

theorem Bears.place (h : g.Bears Q) (id : Int64) (p : π) : (g.place id p).2.Bears Q := by
  intro v e he
  rw [out_place] at he
  exact h v e he

theorem Bears.addEdge [Quantity α] (h : g.Bears Q) {length travel : α} (hq : Q length travel)
    (source target : Int64) (className : String) :
    (g.addEdge source target length travel className).2.Bears Q := by
  intro v e he
  rcases mem_out_addEdge he with ⟨hlength, htravel⟩ | he
  · rwa [hlength, htravel]
  · exact h v e he

end Network

namespace Trip
open Dataset (Catalog Partition Road)
open Grid (Cell CellSet)
open Network (Bears Finder Full Quantity)
open Store (Disk)

/-! ## What requests keep -/

section Loading
variable [Quantity α] {Q : α → α → Prop}

/-- The edges of a road have its length and the time it takes. -/
def AllBear (Q : α → α → Prop) (travel : Travel α) (part : Partition α π) : Prop :=
  ∀ r ∈ part.roads, Q r.length (travel r.length r.className r.limit)

/-- The changes of such a partition keep this of all edges. -/
theorem keeps_changesOf {travel : Travel α} {part : Partition α π} (h : AllBear Q travel part) :
    ∀ c ∈ changesOf travel part, c.Keeps (Bears Q) := by
  refine forall_changesOf (fun j _ g t hg => ?_) fun r hr a b g t hg => ?_
  · rw [Change.network_apply]
    exact hg.place j.id j.position
  · rw [Change.network_apply]
    exact hg.addEdge (h r hr) a b r.className

end Loading

/-- A planner keeps it too, whatever is asked of it. -/
theorem Planner.Moves.bears [Quantity α] {Q : α → α → Prop} {ok : Reader α → Prop} {p p' : Planner α}
    (h : Moves ok p p') (hg : p.holding.network.Bears Q)
    (hread : ∀ read, ok read → ∀ c part, p.catalog.cells.contains c → read c = .ok part →
      AllBear Q p.travel part) :
    p'.holding.network.Bears Q := by
  induction h with
  | refl => exact hg
  | @ensure p₁ read keys hr hm ih =>
    have hs : p₁.supply read = p.supply read := by
      rw [supply, supply, hm.same.catalog, hm.same.travel]
    have hroads : ∀ c part, (p₁.supply read).available.contains c → (p₁.supply read).read c = .ok part →
        AllBear Q (p₁.supply read).travel part := by
      rw [hs]
      exact hread read hr
    exact Holding.ensure_keeps ih fun c part hc hpart => keeps_changesOf (hroads c part hc hpart)
  | nearest point radius _ ih => exact ih

/-! ## Lengths and times -/

/-- The length and the time of an edge that can be searched. -/
structure IsPassable (length travel : Float) : Prop where
  finite : length.isFinite = true
  length : 0 ≤ length
  number : travel.isNaN = false
  travel : 0 ≤ travel

/-- All edges of a network have such lengths and times, so that both can be the costs of a search. -/
structure Passable (g : Network Float Point) : Prop where
  edges : g.Bears IsPassable
  weighted : ∀ objective, g.Weighted objective

theorem passable_of_bears {g : Network Float Point} (h : g.Bears IsPassable) : Passable g where
  edges := h
  weighted objective v e he := by
    cases objective with
    | time => exact Network.Cost.isWeight_of_zero_le (h v e he).travel
    | distance => exact Network.Cost.isWeight_of_zero_le (h v e he).length

/-- A road with a length can be passed. -/
theorem isPassable_seconds (r : Speed.Replacements) {metres : Float} (h : Dataset.isLength metres)
    (className : String) (limit : Option String) :
    IsPassable metres ((Speed.Profile.ofReplacements r).seconds metres className limit) := by
  obtain ⟨hfinite, hlength⟩ := (Bool.and_eq_true _ _).mp h
  have hlength : 0 ≤ metres := of_decide_eq_true hlength
  have htravel := Speed.Profile.zero_le_seconds r hlength className limit
  exact ⟨hfinite, hlength, (Binary64.zero_le_iff.1 htravel).1, htravel⟩

/-- All roads of a partition that is read can be passed. -/
theorem allBear_of_read (r : Speed.Replacements) {c : Catalog} {disk : Disk} {cell : Cell}
    {part : Partition Float Point} (h : c.read disk cell = .ok part) :
    AllBear IsPassable (Speed.Profile.ofReplacements r).seconds part := fun road hroad =>
  isPassable_seconds r (Catalog.isLength_of_read h road hroad) road.className road.limit

theorem passable_held (r : Speed.Replacements) (c : Catalog) (calls : List (Disk × CellSet)) :
    Passable (held c.cells (Speed.Profile.ofReplacements r).seconds
      (calls.map (requestTo c))).network := by
  refine passable_of_bears (held_keeps .empty fun request hrequest cell part _ hread => ?_)
  obtain ⟨call, -, rfl⟩ := List.mem_map.1 hrequest
  exact keeps_changesOf (allBear_of_read r hread)

/-- Every edge can be searched, whatever speeds are to replace those of the table: the speed on any road
is finite and not below the slowest one, every road that is read has a length, and so requests one after
the other, or the work of a planner, on a dataset that may change on the disk in between, lead only to
networks whose edges have lengths and times that are not negative. -/
theorem edges_are_weights (r : Speed.Replacements) (c : Catalog) :
    (∀ className limit, ((Speed.Profile.ofReplacements r).kmh className limit).isFinite = true ∧
      Speed.slowest ≤ (Speed.Profile.ofReplacements r).kmh className limit) ∧
    (∀ disk cell part, c.read disk cell = .ok part →
      ∀ road ∈ part.roads, road.length.isFinite = true ∧ 0 ≤ road.length) ∧
    (∀ calls : List (Disk × CellSet), Passable
      (held c.cells (Speed.Profile.ofReplacements r).seconds (calls.map (requestTo c))).network) ∧
    ∀ (s : Settings) (index : Snap.Index) (guided : Option (Finder Float Point)) (p : Planner Float),
      s.replacements = r →
      Planner.Run (fun read => ∃ disk, Reads c disk read) (planner s c index guided) p →
      Passable p.holding.network := by
  refine ⟨fun className limit => ?_, fun disk cell part h road hroad => ?_, passable_held r c, ?_⟩
  · obtain ⟨hfinite, hslowest⟩ :=
      (Bool.and_eq_true _ _).mp (Speed.Profile.kmh_isPlausible r className limit)
    exact ⟨hfinite, of_decide_eq_true hslowest⟩
  · have hpassable := allBear_of_read r h road hroad
    exact ⟨hpassable.finite, hpassable.length⟩
  · rintro s index guided p rfl hrun
    refine passable_of_bears (hrun.moves.bears .empty ?_)
    rintro read ⟨disk, hreads⟩ cell part hcell hread
    exact allBear_of_read _ (hreads cell part hcell hread)

namespace Pair

/-- Speeds that are not plausible. -/
def oddSpeeds : Speed.Replacements :=
  ((∅ : Speed.Replacements).insert "primary" (0.0 / 0.0)).insert "service" (-5.0)

/-- A planner that is to use them, with both partitions loaded. -/
def oddPlanner : Planner Float :=
  ((planner { Settings.standard with replacements := oddSpeeds } catalog Sole.index none).ensure
    (catalog.read (files westPart eastPart)) catalog.cells).2

theorem edges_are_weights_pair :
    catalog.read (files westPart eastPart) west = .ok westPart ∧
    (∀ road ∈ westPart.roads, road.length.isFinite = true ∧ 0 ≤ road.length) ∧
    Planner.Run (fun read => ∃ disk, Reads catalog disk read)
      (planner { Settings.standard with replacements := oddSpeeds } catalog Sole.index none) oddPlanner ∧
    Passable oddPlanner.holding.network := by
  obtain ⟨-, hroads, -, hplanner⟩ := edges_are_weights oddSpeeds catalog
  have hread := (read_files (w := westPart) (e := eastPart) rfl rfl (by decide +kernel)
    (by decide +kernel)).1
  have hrun : Planner.Run (fun read => ∃ disk, Reads catalog disk read)
      (planner { Settings.standard with replacements := oddSpeeds } catalog Sole.index none)
      oddPlanner :=
    .ensure _ _ ⟨files westPart eastPart, fun _ _ _ h => h⟩ .start
  exact ⟨hread, hroads _ _ _ hread, hrun, hplanner _ _ _ _ rfl hrun⟩

end Pair

end Trip
end RoadRouting
