import RoadRouting.Network.Quantity
import RoadRouting.Snap.Packing
import Std.Data.HashMap

/-!
# Snapping to sampled nodes

`Index.nearest` rounds a query, takes the entries that are nearest by squared degrees, and answers the
one that is nearest by great-circle distance, if that is within a radius. Answers are remembered by
the rounded query and the radius, up to a capacity. Entries are packed when an index is made, and put in
order when it is asked: both break down on what is no number.
-/

namespace RoadRouting.Snap
set_option autoImplicit false
open Network (floatRank)

/-- A node that a query was moved to, with the distance from the rounded query. -/
structure Hit where
  id : Int64
  position : Point
  distance : Float
  cell : Grid.Cell

/-- A rounded query: both coordinates as whole steps, and the bits of the radius. -/
structure Question where
  lat : Int64
  lon : Int64
  radius : UInt64
  deriving DecidableEq, Hashable

/-- An index of sampled nodes and its memory. -/
structure Index where
  entries : List Entry
  coordinates : Std.HashMap Int64 Point
  header : Header
  options : Options
  memo : Std.HashMap Question (Option Hit)
  hits : Nat
  misses : Nat

/-- `base ^ n` by repeated squaring, times `acc`. -/
def powerBy (base acc : Float) (n : Nat) : Float :=
  if n = 0 then acc
  else
    let acc := if n % 2 = 1 then acc * base else acc
    if n / 2 = 0 then acc else powerBy (base * base) acc (n / 2)
termination_by n
decreasing_by omega

/-- How many steps a degree is cut into. A number of decimals with the highest of 32 bits set counts
as negative. -/
def scaleOf (decimals : Nat) : Float :=
  if decimals < 1 <<< 31 then powerBy 10.0 1.0 decimals
  else 1.0 / powerBy 10.0 1.0 (1 <<< 32 - decimals)

/-- The whole number nearest to `x` that 64 bits hold. A half goes away from zero, and what is no number
counts as zero. -/
def nearestWhole (x : Float) : Int64 :=
  let size := x.abs
  let whole := size.toUInt64
  let steps : Int := if 0.5 ≤ size - whole.toFloat then whole.toNat + 1 else whole.toNat
  let n := if x < 0 then -steps else steps
  if n < Int64.minValue.toInt then .minValue
  else if Int64.maxValue.toInt < n then .maxValue
  else .ofInt n

/-- Rounds a query. -/
def Question.of (options : Options) (p : Point) (radius : Float) : Question :=
  let scale := scaleOf options.decimals
  ⟨nearestWhole (p.lat * scale), nearestWhole (p.lon * scale), radius.toBits⟩

/-- The point that a rounded query stands for. -/
def Question.point (options : Options) (q : Question) : Point :=
  let scale := scaleOf options.decimals
  ⟨Float.ofInt q.lat.toInt / scale, Float.ofInt q.lon.toInt / scale⟩

/-- The squared distance in degrees. -/
def sqDegrees (a b : Point) : Float :=
  let dLon := a.lon - b.lon
  let dLat := a.lat - b.lat
  dLon * dLon + dLat * dLat

/-- The first ones of some entries in ascending order of their squared degrees from a point. -/
def firstByDegrees (entries : List Entry) (count : Nat) (p : Point) : List Entry :=
  let measured := entries.map fun e => (sqDegrees e.position p, e)
  ((measured.mergeSort fun a b => (floatRank a.1 b.1).isLE).take count).map (·.2)

/-- Whether entries can be put in order as seen from a point: a single one is compared with nothing. -/
def isSearchable (entries : List Entry) (p : Point) : Bool :=
  entries.length ≤ 1 || entries.all fun e => !(sqDegrees e.position p).isNaN

/-- The entries nearest to a point by squared degrees. -/
def candidatesFor (entries : List Entry) (count : Nat) (p : Point) : Except Breakdown (List Entry) :=
  if isSearchable entries p then .ok (firstByDegrees entries count p) else .error .incomparable

/-- Whether one measured entry is better than another: nearer, or as near and with a lower
identifier. -/
def isBetter (a b : Float × Entry) : Bool :=
  match floatRank a.1 b.1 with
  | .lt => true
  | .gt => false
  | .eq => a.2.id < b.2.id

/-- The better one of two measured entries; the first one when neither is better. -/
def better (a b : Float × Entry) : Float × Entry := if isBetter b a then b else a

/-- The best of some entries, with its distance from a point. -/
def bestOf? (entries : List Entry) (p : Point) : Option (Float × Entry) :=
  match entries.map fun e => (p.distance e.position, e) with
  | [] => none
  | first :: rest => some (rest.foldl better first)

/-- The entry as an answer, if its partition is a cell. -/
def Entry.hit? (e : Entry) (distance : Float) : Option Hit :=
  match Grid.Cell.ofRaw e.partition with
  | .ok cell => some ⟨e.id, e.position, distance, cell⟩
  | .error _ => none

/-- The best of some candidates as an answer, if it is within the radius. -/
def answerOf (candidates : List Entry) (p : Point) (radius : Float) : Option Hit :=
  match bestOf? candidates p with
  | some (distance, e) => if distance ≤ radius then e.hit? distance else none
  | none => none

/-- The answer to a query for a rounded point, without memory. -/
def scan (entries : List Entry) (options : Options) (p : Point) (radius : Float) :
    Except Breakdown (Option Hit) := do
  let candidates ← candidatesFor entries options.candidates p
  return answerOf candidates p radius

/-- Whether a query can be answered at all: the point lies on the globe and the radius is a number. -/
def isQuery (p : Point) (radius : Float) : Bool := p.isValid && !radius.isNaN

namespace Index

/-- The index of packed entries. Of several entries for one node the last one gives its coordinates. -/
def ofPacked (entries : List Entry) (header : Header) (options : Options) : Index where
  entries
  coordinates := entries.foldl (fun m e => m.insert e.id e.position) ∅
  header
  options
  memo := ∅
  hits := 0
  misses := 0

/-- The index of some entries, which are packed for it. -/
def ofEntries (entries : List Entry) (header : Header) (options : Options) : Except Breakdown Index :=
  if isPackable entries then .ok (ofPacked entries header options) else .error .incomparable

/-- How many entries there are. -/
def size (ix : Index) : Nat := ix.entries.length

/-- The coordinates recorded for a node. -/
def coordinate? (ix : Index) (id : Int64) : Option Point := ix.coordinates[id]?

/-- The share of queries that were answered from memory. -/
def hitRate (ix : Index) : Float :=
  let total := ix.hits + ix.misses
  if total = 0 then 0.0 else ix.hits.toFloat / total.toFloat

/-- Remembers an answer unless the memory is full. -/
def remember (ix : Index) (q : Question) (answer : Option Hit) : Index :=
  if ix.memo.size < ix.options.memoCapacity then { ix with memo := ix.memo.insert q answer } else ix

/-- The sampled node nearest to a point within a radius, and the index with its new memory. A breakdown
is counted, but not remembered. -/
def nearest (ix : Index) (p : Point) (radius : Float) : Except Breakdown (Option Hit) × Index :=
  if isQuery p radius then
    let q := Question.of ix.options p radius
    match ix.memo[q]? with
    | some answer => (.ok answer, { ix with hits := ix.hits + 1 })
    | none =>
      let ix := { ix with misses := ix.misses + 1 }
      match scan ix.entries ix.options (q.point ix.options) radius with
      | .ok answer => (.ok answer, ix.remember q answer)
      | .error b => (.error b, ix)
  else (.ok none, ix)

end Index
end RoadRouting.Snap
