import RoadRouting.Network.Ids
import RoadRouting.Network.Quantity
import RoadRouting.Objective
import Std.Data.HashMap

/-!
# Road networks

A directed network that grows while it is used. Nodes carry the identifiers of the data; a node may be
known before its position is, because a road leads to it. Between two nodes there is at most one edge
in each direction: a road that is added again replaces the edge. Nothing is ever taken out.
-/

namespace RoadRouting
set_option autoImplicit false

namespace Network

/-- A directed edge, with the seconds it takes and the class of its road. -/
structure Edge (α : Type) where
  target : NodeId
  length : α
  travel : α
  className : ClassId
  deriving Repr

/-- What an edge costs under an objective. -/
def Edge.cost {α : Type} (e : Edge α) : Objective → α
  | .time => e.travel
  | .distance => e.length

/-- A node: its identifier, its position unless it is known only as the end of a road, and the edges
that leave it. A node has its edges with it, so there is a list of edges for each node and no other. -/
structure Node (α π : Type) where
  id : Int64
  position : Option π
  out : List (Edge α)

/-- Which part of a network is full. -/
inductive Full where
  | nodes
  | classes
  deriving DecidableEq, Repr

/-- The wording of a full network. -/
def Full.message : Full → String
  | .nodes => "graph capacity exceeded: node arena is full"
  | .classes => "graph capacity exceeded: too many road classifications"

end Network

open Network

/-- A road network. `fastest` is the highest speed of any edge that was ever added. -/
structure Network (α π : Type) where
  nodes : Array (Node α π)
  numbers : Std.HashMap Int64 NodeId
  classes : Array String
  classNumbers : Std.HashMap String ClassId
  edgeCount : Nat
  fastest : α

namespace Network
variable {α π : Type}

/-- The network without nodes. -/
def empty [Cost α] : Network α π :=
  { nodes := #[], numbers := ∅, classes := #[], classNumbers := ∅, edgeCount := 0, fastest := 0 }

/-- How many nodes there are. -/
def nodeCount (g : Network α π) : Nat := g.nodes.size

/-- The number of the node with an identifier. -/
def lookup (g : Network α π) (id : Int64) : Option NodeId := g.numbers[id]?

/-- The node with a number. -/
def node? (g : Network α π) (v : NodeId) : Option (Node α π) := g.nodes[v.index]?

/-- The position of a node, if it is known. -/
def position? (g : Network α π) (v : NodeId) : Option π := (g.node? v).bind (·.position)

/-- The identifier of a node. -/
def id? (g : Network α π) (v : NodeId) : Option Int64 := (g.node? v).map (·.id)

/-- The edges that leave a node. -/
def out (g : Network α π) (v : NodeId) : List (Edge α) := ((g.node? v).map (·.out)).getD []

/-- The edge from one node to another. -/
def edge? (g : Network α π) (u v : NodeId) : Option (Edge α) :=
  (g.out u).find? fun e => e.target = v

/-- The name of a class; a number without a class has a name for the unknown. -/
def className (g : Network α π) (c : ClassId) : String := g.classes.getD c.index "unknown"

/-- Adds a node that is not known. -/
def push (g : Network α π) (id : Int64) (position : Option π) :
    Except Full NodeId × Network α π :=
  let v : NodeId := ⟨g.nodes.size⟩
  if v.index < NodeId.invalid.index then
    (.ok v, { g with
      nodes := g.nodes.push { id, position, out := [] }
      numbers := g.numbers.insert id v })
  else (.error .nodes, g)

/-- The number of the node with an identifier; a node that is not known is added without position. -/
def ensure (g : Network α π) (id : Int64) : Except Full NodeId × Network α π :=
  match g.lookup id with
  | some v => (.ok v, g)
  | none => g.push id none

/-- The nodes with a position given to one of them. -/
def withPosition (nodes : Array (Node α π)) (v : NodeId) (p : π) : Array (Node α π) :=
  nodes.modify v.index fun n => { n with position := some p }

/-- Gives a position to the node with an identifier, and tells whether it had none. -/
def place (g : Network α π) (id : Int64) (p : π) : Except Full Bool × Network α π :=
  match g.lookup id with
  | some v =>
    let fresh := (g.position? v).isNone
    (.ok fresh, { g with nodes := withPosition g.nodes v p })
  | none =>
    match g.push id (some p) with
    | (.ok _, g) => (.ok true, g)
    | (.error e, g) => (.error e, g)

/-- The number of a class; one that is not known is added. -/
def intern (g : Network α π) (name : String) : Except Full ClassId × Network α π :=
  match g.classNumbers[name]? with
  | some c => (.ok c, g)
  | none =>
    let c : ClassId := ⟨g.classes.size⟩
    if c.index < ClassId.invalid.index then
      (.ok c, { g with
        classes := g.classes.push name
        classNumbers := g.classNumbers.insert name c })
    else (.error .classes, g)

/-- The speed of an edge in kilometres per hour; an edge that takes no time is infinitely fast. -/
def speedOf [Quantity α] (length travel : α) : α :=
  if 0 < travel then length / travel * Quantity.kmhPerMetreSecond else Cost.infinite

/-- Raises the highest speed to that of an edge, if the edge has a length. -/
def noteSpeed [Quantity α] (g : Network α π) (length travel : α) : Network α π :=
  if 0 < length then
    let kmh := speedOf length travel
    if g.fastest < kmh then { g with fastest := kmh } else g
  else g

/-- Replaces the edge to the same target, or adds the edge at the end. -/
def putEdge (e : Edge α) : List (Edge α) → List (Edge α)
  | [] => [e]
  | f :: rest => if f.target = e.target then e :: rest else f :: putEdge e rest

/-- The nodes with an edge added to those that leave one of them. -/
def withEdge (nodes : Array (Node α π)) (u : NodeId) (e : Edge α) : Array (Node α π) :=
  nodes.modify u.index fun n => { n with out := putEdge e n.out }

/-- Adds an edge to those that leave a node, and tells whether it replaced none. -/
def link (g : Network α π) (u : NodeId) (e : Edge α) : Bool × Network α π :=
  let fresh := (g.edge? u e.target).isNone
  let g := if fresh then { g with edgeCount := g.edgeCount + 1 } else g
  (fresh, { g with nodes := withEdge g.nodes u e })

/-- Adds the edge between two nodes, and tells whether it replaced none. Nodes that are not known are
added first, then the class. -/
def addEdge [Quantity α] (g : Network α π) (source target : Int64) (length travel : α)
    (className : String) : Except Full Bool × Network α π :=
  match g.ensure source with
  | (.error e, g) => (.error e, g)
  | (.ok u, g) =>
    match g.ensure target with
    | (.error e, g) => (.error e, g)
    | (.ok v, g) =>
      match g.intern className with
      | (.error e, g) => (.error e, g)
      | (.ok c, g) =>
        let (fresh, g) := (g.noteSpeed length travel).link u ⟨v, length, travel, c⟩
        (.ok fresh, g)

end Network
end RoadRouting
