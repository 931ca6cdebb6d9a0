import RoadRouting.Trip.Corridor
import RoadRouting.Trip.Loader
import RoadRouting.Trip.Route

/-!
# Planning routes

A planner selects the corridor between two points, loads its partitions, moves both points to sampled
nodes and searches the network. Long trips are searched with estimates first, and once more without
when that fails.
-/

namespace RoadRouting.Trip
set_option autoImplicit false
open Dataset (Catalog Partition)
open Grid (Cell CellSet)
open Network (Finder Found NodeId Quantity SearchFault)
open Snap (Hit)

/-- A planner: what it was made from, the snap index, the network as far as it is loaded, and the
search for long trips. -/
structure Planner (α : Type) where
  settings : Settings
  catalog : Catalog
  index : Snap.Index
  holding : Holding α Point
  travel : Travel α
  guided : Finder α Point

/-- How partitions are read while a planner works. -/
abbrev Reader (α : Type) := Cell → Except Dataset.Fault (Partition α Point)

/-- What a request gives: a result, warnings in their order, and the planner afterwards. -/
structure Reply (α β : Type) where
  result : Except Fault β
  warnings : List Warning
  planner : Planner α

variable {α : Type}

/-- The corridor between two points, with a warning when too little of it is covered. -/
def selectCorridor (catalog : Catalog) (origin destination : Point)
    (width spacing threshold : Float) : Corridor × List Warning :=
  let c := Corridor.between catalog origin destination width spacing
  (c, if origin.isValid && destination.isValid && c.isThin threshold then
      [.thinCorridor origin destination c.available.size c.computed.size c.coverage]
    else [])

/-- The search without estimates; that its limit was reached is worth a warning. -/
def searchPlainly [Quantity α] (g : Network α Point) (u v : NodeId) (objective : Objective)
    (limit : Option Nat) : Option (Found α) × List Warning :=
  match g.plain u v objective limit with
  | .ok found => (some found, [])
  | .error .stepLimit => (none, [.stepLimit])
  | .error _ => (none, [])

/-- The search for a trip of some straight length. -/
def searchTrip [Quantity α] (settings : Settings) (guided : Finder α Point) (g : Network α Point)
    (u v : NodeId) (objective : Objective) (straight : Float) :
    Option (Found α × Algorithm) × List Warning :=
  if settings.guidedAbove < straight then
    match guided g u v objective settings.stepLimit with
    | .ok found => (some (found, .guided), [])
    | .error fault =>
      let (found, warnings) := searchPlainly g u v objective settings.stepLimit
      (found.map (·, .fallback), .guidedFailed fault :: warnings)
  else
    let (found, warnings) := searchPlainly g u v objective settings.stepLimit
    (found.map (·, .plain), warnings)

/-- The edges between successive nodes. -/
def edgesAlong (g : Network α Point) : List NodeId → List (Network.Edge α)
  | u :: v :: rest =>
    match g.edge? u v with
    | some e => e :: edgesAlong g (v :: rest)
    | none => edgesAlong g (v :: rest)
  | _ => []

/-- The route along a path. -/
def summarize [Quantity α] (g : Network α Point) (path : List NodeId) (objective : Objective)
    (algorithm : Algorithm) (origin destination : Hit) : Route α :=
  let edges := edgesAlong g path
  { path := path.filterMap g.id?
    length := edges.foldl (fun sum e => sum + e.length) 0
    travel := edges.foldl (fun sum e => sum + e.travel) 0
    classes := edges.map fun e => g.className e.className
    objective
    algorithm
    originSnap := origin.distance
    destinationSnap := destination.distance }

/-- The node that a hit names, if it is loaded with a position. A position other than the one of the
index is a fault. -/
def loadedNode (g : Network α Point) (hit : Hit) : Except Fault (Option NodeId) :=
  match g.lookup hit.id with
  | none => .ok none
  | some v => match g.position? v with
    | none => .ok none
    | some p => if p == hit.position then .ok (some v) else .error (.disagreement hit.id hit.position p)

/-- The fault of a planner for one of loading. -/
def Fault.ofLoad : LoadFault Dataset.Fault → Fault
  | .unreadable f => .dataset f
  | .full f => .full f

namespace Planner

/-- Where the planner's partitions come from. -/
def supply (p : Planner α) (read : Reader α) : Supply Dataset.Fault α Point :=
  ⟨p.catalog.cells, read, p.travel⟩

/-- Sees to it that the partitions of the given cells are loaded. -/
def ensure [Quantity α] (p : Planner α) (read : Reader α) (keys : CellSet) :
    Except Fault Report × Planner α :=
  let (result, holding) := p.holding.ensure (p.supply read) keys
  (result.mapError Fault.ofLoad, { p with holding })

/-- The sampled node nearest to a point within a radius. -/
def nearest (p : Planner α) (at_ : Point) (radius : Float) : Except Fault (Option Hit) × Planner α :=
  let (hit, index) := p.index.nearest at_ radius
  (hit.mapError .breakdown, { p with index })

/-- The corridor between two points of a given width. -/
def select (p : Planner α) (origin destination : Point) (width : Float) : Corridor × List Warning :=
  selectCorridor p.catalog origin destination width p.settings.sampleSpacing p.settings.coverageWarning

/-- The node that a hit names; its partition is loaded if it is not there. -/
def resolve [Quantity α] (p : Planner α) (read : Reader α) (hit : Hit) :
    Except Fault NodeId × Planner α :=
  match loadedNode p.holding.network hit with
  | .error f => (.error f, p)
  | .ok (some v) => (.ok v, p)
  | .ok none =>
    if p.catalog.cells.contains hit.cell then
      match p.ensure read ((∅ : CellSet).insert hit.cell) with
      | (.error f, p) => (.error f, p)
      | (.ok _, p) => match loadedNode p.holding.network hit with
        | .error f => (.error f, p)
        | .ok (some v) => (.ok v, p)
        | .ok none => (.error (.missingNode hit.id hit.cell), p)
    else (.error (.missingNode hit.id hit.cell), p)

/-- The route between two resolved nodes. -/
def finish [Quantity α] (p : Planner α) (objective : Objective) (straight : Float)
    (origin destination : Hit) (u v : NodeId) (warnings : List Warning) :
    Reply α (Option (Route α)) :=
  let g := p.holding.network
  let (found, more) := searchTrip p.settings p.guided g u v objective straight
  let route := found.map fun (found, algorithm) =>
    summarize g found.path objective algorithm origin destination
  ⟨.ok route, warnings ++ more, p⟩

/-- The route between two sampled nodes. -/
def connect [Quantity α] (p : Planner α) (read : Reader α) (objective : Objective) (straight : Float)
    (origin destination : Hit) (warnings : List Warning) : Reply α (Option (Route α)) :=
  match p.resolve read origin with
  | (.error f, p) => ⟨.error f, warnings, p⟩
  | (.ok u, p) => match p.resolve read destination with
    | (.error f, p) => ⟨.error f, warnings, p⟩
    | (.ok v, p) => p.finish objective straight origin destination u v warnings

/-- The route between two points. There is none when the corridor has no partitions, when an end is too
far from all sampled nodes, or when the search finds no path. -/
def route [Quantity α] (p : Planner α) (read : Reader α) (origin destination : Point)
    (objective : Objective) : Reply α (Option (Route α)) :=
  let (corridor, warnings) := p.select origin destination p.settings.corridorWidth
  if corridor.isEmpty then ⟨.ok none, warnings, p⟩
  else match p.ensure read corridor.available with
    | (.error f, p) => ⟨.error f, warnings, p⟩
    | (.ok _, p) => match p.nearest origin p.settings.snapRadius with
      | (.error f, p) => ⟨.error f, warnings, p⟩
      | (.ok none, p) => ⟨.ok none, warnings, p⟩
      | (.ok (some start), p) => match p.nearest destination p.settings.snapRadius with
        | (.error f, p) => ⟨.error f, warnings, p⟩
        | (.ok none, p) => ⟨.ok none, warnings, p⟩
        | (.ok (some goal), p) => p.connect read objective corridor.straight start goal warnings

/-- The positions of nodes, as far as they are loaded. -/
def positions (p : Planner α) (path : List Int64) : List Point :=
  path.filterMap fun id => (p.holding.network.lookup id).bind p.holding.network.position?

end Planner
end RoadRouting.Trip
