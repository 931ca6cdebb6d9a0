import RoadRouting.Network.Ids
import RoadRouting.Network.Quantity

/-!
# The frontier of a search

A priority queue of reached nodes: a binary heap in an array, whose entry at `i` does not come after
those at `2 * i + 1` and `2 * i + 2`. Entries come out by score; of equal scores the lower node comes
first.
-/

namespace RoadRouting.Network
set_option autoImplicit false

/-- A node that was reached at a cost, and the score by which it waits. -/
structure Entry (α : Type) where
  node : NodeId
  cost : α
  score : α
  deriving Repr

/-- Whether an entry comes out before another one. -/
def Entry.before {α : Type} [Cost α] (a b : Entry α) : Bool :=
  match Cost.rank a.score b.score with
  | .lt => true
  | .gt => false
  | .eq => a.node.index < b.node.index

/-- The entries of a frontier as a heap. -/
structure Frontier (α : Type) where
  heap : Array (Entry α)

namespace Frontier
variable {α : Type}

/-- The frontier without entries. -/
def empty : Frontier α := ⟨#[]⟩

/-- Whether the entry at `i` comes before the one at `j`. -/
def before [Cost α] (h : Array (Entry α)) (i j : Nat) : Bool :=
  match h[i]?, h[j]? with
  | some a, some b => a.before b
  | _, _ => false

/-- Moves the entry at `i` towards the root while it comes before its parent. -/
def rise [Cost α] (h : Array (Entry α)) (i : Nat) : Array (Entry α) :=
  if i = 0 then h
  else
    let parent := (i - 1) / 2
    if before h i parent then rise (h.swapIfInBounds i parent) parent else h
termination_by i
decreasing_by omega

/-- The child of `i` that the entry at `i` is exchanged with on its way down: the left one if it comes
before the right one or is the only one. -/
def preferredChild [Cost α] (h : Array (Entry α)) (i : Nat) : Nat :=
  let left := 2 * i + 1
  if left + 1 < h.size then (if before h left (left + 1) then left else left + 1) else left

/-- Moves the entry at `i` down to a leaf and then up to where it belongs. -/
def sink [Cost α] (h : Array (Entry α)) (i : Nat) : Array (Entry α) :=
  let child := preferredChild h i
  if child < h.size then sink (h.swapIfInBounds i child) child else rise h i
termination_by h.size - i
decreasing_by
  have h1 : i < preferredChild h i := by unfold preferredChild; simp only; split <;> (try split) <;> omega
  simp only [Array.size_swapIfInBounds]
  omega

/-- Adds an entry. -/
def push [Cost α] (q : Frontier α) (e : Entry α) : Frontier α :=
  ⟨rise (q.heap.push e) q.heap.size⟩

/-- The entry that comes out first, and the frontier without it. -/
def pop? [Cost α] (q : Frontier α) : Option (Entry α × Frontier α) :=
  match q.heap[0]? with
  | none => none
  | some top => some (top, ⟨sink (q.heap.swapIfInBounds 0 (q.heap.size - 1)).pop 0⟩)

end Frontier
end RoadRouting.Network
