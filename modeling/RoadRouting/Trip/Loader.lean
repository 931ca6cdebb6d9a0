import RoadRouting.Dataset.Rows
import RoadRouting.Grid.CellSet
import RoadRouting.Network.Basic
import Std.Data.HashSet

/-!
# Loading partitions

A partition is merged into the network row by row: junctions get their positions, and each road gives
an edge in each direction in which it is open. The loader remembers which partitions were merged and
which sets of cells were asked for. All partitions of a request are read before the first one is
merged.
-/

namespace RoadRouting.Trip
set_option autoImplicit false
open Dataset (Junction Road Partition)
open Grid (Cell CellSet)
open Network (Full Quantity)

/-- A change to a network that a row of a partition asks for. -/
inductive Change (α π : Type) where
  | place (id : Int64) (position : π)
  | connect (source target : Int64) (length travel : α) (className : String)

/-- The seconds that a road of a length, a class and a posted limit takes. -/
abbrev Travel (α : Type) := α → String → Option String → α

/-- How much was new. -/
structure Tally where
  nodes : Nat
  edges : Nat
  deriving DecidableEq, Repr

/-- Nothing was new. -/
def Tally.none : Tally := ⟨0, 0⟩

variable {ε α π : Type}

/-- The edges of a road: forwards, and backwards unless it is one-way. -/
def changesOfRoad (travel : Travel α) (r : Road α) : List (Change α π) :=
  let seconds := travel r.length r.className r.limit
  .connect r.source r.target r.length seconds r.className ::
    (if r.oneWay then [] else [.connect r.target r.source r.length seconds r.className])

/-- The changes that a partition asks for: its junctions, then its roads. -/
def changesOf (travel : Travel α) (p : Partition α π) : List (Change α π) :=
  p.junctions.map (fun j => .place j.id j.position) ++ p.roads.flatMap (changesOfRoad travel)

/-- Makes a change, and counts what is new. -/
def Change.apply [Quantity α] (c : Change α π) (g : Network α π) (t : Tally) :
    Except Full Tally × Network α π :=
  match c with
  | .place id position => match g.place id position with
    | (.ok fresh, g) => (.ok (if fresh then { t with nodes := t.nodes + 1 } else t), g)
    | (.error e, g) => (.error e, g)
  | .connect source target length travel className =>
    match g.addEdge source target length travel className with
    | (.ok fresh, g) => (.ok (if fresh then { t with edges := t.edges + 1 } else t), g)
    | (.error e, g) => (.error e, g)

/-- Makes changes one after the other, up to the first for which there is no room. -/
def applyAll [Quantity α] : List (Change α π) → Network α π → Tally →
    Except Full Tally × Network α π
  | [], g, t => (.ok t, g)
  | c :: rest, g, t =>
    match c.apply g t with
    | (.ok t, g) => applyAll rest g t
    | (.error e, g) => (.error e, g)

/-- Where partitions come from: the cells that have one, how one is read, and how long roads take. -/
structure Supply (ε α π : Type) where
  available : CellSet
  read : Cell → Except ε (Partition α π)
  travel : Travel α

/-- The partitions that were merged, the sets of cells that were asked for, and how often one of these
was asked for again. -/
structure Loader where
  loaded : CellSet
  answered : Std.HashSet (List Cell)
  hits : Nat

/-- A loader and the network that it fills. -/
structure Holding (α π : Type) where
  loader : Loader
  network : Network α π

/-- Nothing has been loaded. -/
def Holding.empty [Quantity α] : Holding α π := ⟨⟨∅, ∅, 0⟩, .empty⟩

/-- What a request did. -/
structure Report where
  tally : Tally
  read : Nat
  /-- The same set of cells had been asked for before. -/
  repeated : Bool
  deriving DecidableEq, Repr

/-- Why a request failed. -/
inductive LoadFault (ε : Type) where
  | unreadable (fault : ε)
  | full (fault : Full)

namespace Holding

/-- The cells of a request that have partitions and were not merged. -/
def pending (h : Holding α π) (available keys : CellSet) : List Cell :=
  keys.toList.filter fun c => available.contains c && !h.loader.loaded.contains c

/-- Merges partitions one after the other, up to the first for which there is no room. -/
def merge [Quantity α] (travel : Travel α) : List (Partition α π) → Holding α π → Tally →
    Except Full Tally × Holding α π
  | [], h, t => (.ok t, h)
  | p :: rest, ⟨loader, network⟩, t =>
    match applyAll (changesOf travel p) network t with
    | (.ok t, network) =>
      merge travel rest ⟨{ loader with loaded := loader.loaded.insert p.cell }, network⟩ t
    | (.error e, network) => (.error e, ⟨loader, network⟩)

/-- Sees to it that the partitions of the given cells are loaded. -/
def ensure [Quantity α] (h : Holding α π) (supply : Supply ε α π) (keys : CellSet) :
    Except (LoadFault ε) Report × Holding α π :=
  let request := keys.toList
  if h.loader.answered.contains request then
    (.ok ⟨.none, 0, true⟩, { h with loader := { h.loader with hits := h.loader.hits + 1 } })
  else
    match (h.pending supply.available keys).mapM supply.read with
    | .error e => (.error (.unreadable e), h)
    | .ok partitions =>
      match merge supply.travel partitions h .none with
      | (.error e, h) => (.error (.full e), h)
      | (.ok tally, ⟨loader, network⟩) =>
        (.ok ⟨tally, partitions.length, false⟩,
          ⟨{ loader with answered := loader.answered.insert request }, network⟩)

end Holding
end RoadRouting.Trip
