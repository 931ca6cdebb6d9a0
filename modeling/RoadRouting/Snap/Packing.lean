import RoadRouting.Snap.Entry

/-!
# Packed entries

An archive packs its entries into a tree whose nodes have at most six children: the entries are cut
into slabs from south to north, each slab into clusters from west to east, and each cluster is packed
in turn. A cut needs no more order than that the entries before it do not come after those behind it;
`select` brings them into that order by splitting around pivots. `visitOrder` is the order in which
the tree is looked through.
-/

namespace RoadRouting.Snap
set_option autoImplicit false

section Select
variable {α : Type}

/-- Adds an item to the two sides of a pivot. A side that grows in front of another one pushes the
first item of that one to its end. -/
def sift (below : α → Bool) (sides : List α × List α) (x : α) : List α × List α :=
  if below x then (sides.1 ++ [x], sides.2.rotateLeft) else (sides.1, x :: sides.2.rotateLeft)

/-- Splits items around the one at a position: those below it, the pivot itself, and the others. -/
def splitAround (less : α → α → Bool) (v : List α) (position : Nat) : Option (List α × α × List α) := do
  let first ← v.head?
  let pivot ← v[position]?
  let others := (v.set position first).tail
  let (low, high) := others.rotateLeft.foldl (sift (less · pivot)) ([], [])
  return (low.rotateRight, pivot, high)

/-- The middle one of three positions. -/
def middle (less : Nat → Nat → Bool) (a b c : Nat) : Nat :=
  let x := less a b
  if x = less a c then (if less b c = x then b else c) else a

/-- The middle of three positions, each of which is first replaced by the middle of three in the `n`
positions that begin there, as long as these are many. -/
def middleOf (less : Nat → Nat → Bool) (a b c n : Nat) : Nat :=
  if _h : 8 ≤ n then
    let m := n / 8
    let within (p : Nat) := middleOf less p (p + 4 * m) (p + 7 * m) m
    middle less (within a) (within b) (within c)
  else middle less a b c
termination_by n
decreasing_by all_goals omega

/-- The position of the item to split around. -/
def pivotOf (less : α → α → Bool) (v : List α) : Nat :=
  let items := v.toArray
  let lessAt (i j : Nat) : Bool :=
    match items[i]?, items[j]? with
    | some x, some y => less x y
    | _, _ => false
  let n := v.length / 8
  middleOf lessAt 0 (4 * n) (7 * n) n

/-- The items in ascending order; those of equal rank keep theirs. -/
def sorted (less : α → α → Bool) (v : List α) : List α := v.mergeSort fun a b => !less b a

/-- So many items are sorted rather than split. -/
def fewItems : Nat := 16

/-- Splits until the item at position `k` is where sorting would put it, at most `rounds` times.
`floor` is an earlier pivot that no item is below; when a new pivot has its rank, all items of that
rank are split off. -/
def selectWithin (less : α → α → Bool) : Nat → Option α → List α → Nat → List α
  | 0, _, v, _ => sorted less v
  | rounds + 1, floor, v, k =>
    if v.length ≤ fewItems then sorted less v
    else
      let position := pivotOf less v
      let repeated := match floor, v[position]? with
        | some x, some y => !less x y
        | _, _ => false
      match splitAround (if repeated then fun a b => !less b a else less) v position with
      | none => v
      | some (low, pivot, high) =>
        if low.length < k then
          let floor := if repeated then none else some pivot
          low ++ pivot :: selectWithin less rounds floor high (k - low.length - 1)
        else if k < low.length && !repeated then
          selectWithin less rounds floor low k ++ pivot :: high
        else low ++ pivot :: high

/-- The position of the first greatest item. -/
def greatestAt (less : α → α → Bool) : List α → Nat
  | [] => 0
  | first :: rest =>
    ((rest.zipIdx 1).foldl (fun best x => if less best.1 x.1 then x else best) (first, 0)).2

/-- Brings items into an order in which the one at position `k` is where sorting would put it, those
before it are not above it and those behind it not below it. -/
def select (less : α → α → Bool) (v : List α) (k : Nat) : List α :=
  if k + 1 = v.length then
    let i := greatestAt less v
    match v[i]?, v[k]? with
    | some x, some y => (v.set i y).set k x
    | _, _ => v
  else selectWithin less 16 none v k

/-- Cuts items into at most `count + 1` slabs of `size` items; the last one may be smaller. -/
def slabs (less : α → α → Bool) (size : Nat) : Nat → List α → List (List α)
  | 0, v => [v]
  | count + 1, v =>
    if v.length ≤ size then [v]
    else
      let w := select less v size
      w.take size :: slabs less size count (w.drop size)

end Select

/-- How many children a node of the tree has at most. -/
def maxChildren : Nat := 6

/-- Whether entries can be packed. More of them than one node has room for are cut along both axes, and
a cut compares all that it cuts. -/
def isPackable (entries : List Entry) : Bool :=
  entries.length ≤ maxChildren || entries.all (·.position.isNumeric)

/-- The greatest power of six below `n`, or one: how many entries a child of a node with `n` entries
holds at most. -/
def childCapacity (n : Nat) : Nat :=
  if _h : n ≤ maxChildren then 1 else 6 * childCapacity ((n + 5) / 6)
termination_by n
decreasing_by unfold maxChildren at _h; omega

/-- Into how many parts `n` entries are cut along each axis: the least number whose square is enough
for the children that are needed. -/
def partsPerAxis (n : Nat) : Nat :=
  let children := (n + childCapacity n - 1) / childCapacity n
  if children ≤ 1 then 1 else if children ≤ 4 then 2 else 3

/-- Cuts entries into equal parts along an axis. -/
def cutAlong (axis : Point → Float) (parts : Nat) (entries : List Entry) : List (List Entry) :=
  slabs (fun a b => axis a.position < axis b.position) ((entries.length + parts - 1) / parts) parts
    entries

/-- The order in which the packed entries are visited, in a tree of at most `depth` levels above the
lowest one: cluster by cluster, and within a lowest node from the last entry to the first. -/
def visitWithin : Nat → List Entry → List Entry
  | 0, entries => entries.reverse
  | depth + 1, entries =>
    if entries.length ≤ maxChildren then entries.reverse
    else
      let parts := partsPerAxis entries.length
      (cutAlong (·.lat) parts entries).flatMap fun slab =>
        (cutAlong (·.lon) parts slab).flatMap (visitWithin depth)

/-- The order in which packed entries are visited. -/
def visitOrder (entries : List Entry) : List Entry := visitWithin entries.length entries

end RoadRouting.Snap
