import RoadRouting.Network.Basic
import RoadRouting.Network.Frontier

/-!
# Best-first search

A search keeps the least cost at which each node has been reached and the node before it on the way.
It takes the entry with the lowest score from the frontier and follows the edges of its node. A score
is a cost plus an estimate of what remains; without an estimate the search is the plain one.
-/

namespace RoadRouting.Network
set_option autoImplicit false

/-- A path with its cost. -/
structure Found (α : Type) where
  path : List NodeId
  cost : α
  deriving Repr

/-- Why there is no path. -/
inductive SearchFault where
  | noPath
  | unknownNode (node : NodeId)
  | stepLimit
  deriving DecidableEq, Repr

/-- The wording of a failed search. -/
def SearchFault.message : SearchFault → String
  | .noPath => "no path between the endpoints in the loaded graph"
  | .unknownNode node => "node " ++ node.text ++ " is not in the graph"
  | .stepLimit => "step limit exceeded"

/-- What is searched for: a path from `source` to `target`, by an objective, with an estimate of what
remains from each node, expanding at most `limit` nodes. -/
structure Query (α : Type) where
  source : NodeId
  target : NodeId
  objective : Objective
  estimate : NodeId → α
  limit : Option Nat

/-- A search under way. -/
structure State (α : Type) where
  best : Array α
  prev : Array (Option NodeId)
  queue : Frontier α
  steps : Nat

/-- What a step leads to. -/
inductive Progress (α : Type) where
  | running (state : State α)
  | stopped (result : Except SearchFault (Found α))

variable {α π : Type}

namespace State

/-- Only the source has been reached. -/
def start [Cost α] (g : Network α π) (q : Query α) : State α where
  best := (Array.replicate g.nodeCount Cost.infinite).setIfInBounds q.source.index 0
  prev := Array.replicate g.nodeCount none
  queue := Frontier.empty.push ⟨q.source, 0, q.estimate q.source⟩
  steps := 0

/-- The least cost at which a node has been reached. -/
def bestOf [Cost α] (s : State α) (v : NodeId) : α := s.best.getD v.index Cost.infinite

/-- Reaches the target of an edge, if that is cheaper than before. -/
def relax [Cost α] (q : Query α) (entry : Entry α) (s : State α) (e : Edge α) : State α :=
  let cost := entry.cost + e.cost q.objective
  if cost < s.bestOf e.target then
    { s with
      best := s.best.setIfInBounds e.target.index cost
      prev := s.prev.setIfInBounds e.target.index (some entry.node)
      queue := s.queue.push ⟨e.target, cost, cost + q.estimate e.target⟩ }
  else s

/-- The nodes from the source up to `v`, in front of `path`. -/
def trace (prev : Array (Option NodeId)) : Nat → NodeId → List NodeId → List NodeId
  | 0, v, path => v :: path
  | n + 1, v, path =>
    match prev.getD v.index none with
    | none => v :: path
    | some u => trace prev n u (v :: path)

/-- The path that leads to a node. -/
def pathTo (s : State α) (v : NodeId) : List NodeId := trace s.prev s.prev.size v []

/-- Whether one more expansion than `steps` exceeds the limit. -/
def exceeds (limit : Option Nat) (steps : Nat) : Bool :=
  match limit with
  | some n => n < steps + 1
  | none => false

/-- Takes one entry from the frontier. The target ends the search; an entry of a node that has been
reached more cheaply since is dropped; any other one is expanded. -/
def step [Cost α] (g : Network α π) (q : Query α) (s : State α) : Progress α :=
  match s.queue.pop? with
  | none => .stopped (.error .noPath)
  | some (entry, queue) =>
    if entry.node = q.target then .stopped (.ok ⟨s.pathTo entry.node, entry.cost⟩)
    else if s.bestOf entry.node < entry.cost then .running { s with queue }
    else if exceeds q.limit s.steps then .stopped (.error .stepLimit)
    else
      .running ((g.out entry.node).foldl (relax q entry) { s with queue, steps := s.steps + 1 })

/-- At most `n` steps. -/
def advance [Cost α] (g : Network α π) (q : Query α) : Nat → State α → Progress α
  | 0, s => .running s
  | n + 1, s =>
    match step g q s with
    | .running s => advance g q n s
    | .stopped r => .stopped r

/-- How many steps make a round. -/
def round : Nat := 1 <<< 62

/-- At most `n` rounds of steps. -/
def advanceRounds [Cost α] (g : Network α π) (q : Query α) : Nat → State α → Progress α
  | 0, s => .running s
  | n + 1, s =>
    match advance g q round s with
    | .running s => advanceRounds g q n s
    | .stopped r => .stopped r

end State

/-- More than the steps that any search with non-negative costs takes: a node is expanded only for
costs of paths that visit no node twice. -/
def patience (g : Network α π) : Nat :=
  let edges := g.nodes.foldl (fun n v => n + v.out.length) 0
  Nat.pow (edges + 1) g.nodeCount + 2

/-- The first of the nodes that the network lacks. -/
def unknown? (g : Network α π) (vs : List NodeId) : Option NodeId :=
  vs.find? fun v => g.nodeCount ≤ v.index

/-- Searches for a path. A node is its own target at no cost. -/
def search [Cost α] (g : Network α π) (q : Query α) : Except SearchFault (Found α) :=
  match g.unknown? [q.source, q.target] with
  | some v => .error (.unknownNode v)
  | none =>
    if q.source = q.target then .ok ⟨[q.source], 0⟩
    else
      match State.advanceRounds g q g.patience (State.start g q) with
      | .stopped r => r
      | .running _ => .error .stepLimit

/-- A way to find a path in a network: from one node to another, by an objective, within a limit of
steps. -/
abbrev Finder (α π : Type) :=
  Network α π → NodeId → NodeId → Objective → Option Nat → Except SearchFault (Found α)

/-- The search without estimates. -/
def plain [Cost α] : Finder α π := fun g source target objective limit =>
  g.search ⟨source, target, objective, fun _ => 0, limit⟩

/-- The least cost of a metre: for time, that of the fastest known speed. -/
def costPerMetre [Quantity α] (g : Network α π) (objective : Objective) (topSpeed : α) : α :=
  match objective with
  | .time => Quantity.kmhPerMetreSecond / Quantity.larger topSpeed g.fastest
  | .distance => Quantity.one

/-- The metres from a node to a position; none from a node whose position is not known. -/
def remaining [Cost α] (g : Network α π) (distance : π → π → α) (target : π) (v : NodeId) : α :=
  match g.position? v with
  | some p => distance p target
  | none => 0

/-- The search that estimates what remains by the distance to the target, at the larger of `topSpeed`
and the fastest edge. A target without position is searched for without estimates. -/
def guided [Quantity α] (distance : π → π → α) (topSpeed : α) : Finder α π :=
  fun g source target objective limit =>
    match g.position? target with
    | none => g.plain source target objective limit
    | some p =>
      let perMetre := g.costPerMetre objective topSpeed
      g.search ⟨source, target, objective, fun v => g.remaining distance p v * perMetre, limit⟩

end RoadRouting.Network
