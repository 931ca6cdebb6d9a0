import RoadRouting.Geo.Point
import RoadRouting.Grid.Cell

/-!
# Entries of a snap index

A snap index holds sampled nodes with their partitions, and a header that says what they were sampled
from.
-/

namespace RoadRouting.Snap
set_option autoImplicit false

/-- A sampled node. The partition is kept as a number, which an archive need not hold to be a cell. -/
structure Entry where
  id : Int64
  position : Point
  partition : UInt64
  deriving Repr

/-- What keeps an index from giving anything at all, even an error. -/
inductive Breakdown where
  /-- Coordinates or distances had to be put in order, and one of them is no number. -/
  | incomparable
  deriving DecidableEq, Repr

/-- What an index was made from: the encoding, the grid, the sampling, and the partitions. -/
structure Header where
  version : Nat
  resolution : Nat
  sampleCap : Nat
  seed : Nat
  partitions : Nat
  fingerprint : Nat
  deriving DecidableEq, Repr

/-- The version of the encoding. -/
def currentVersion : Nat := 1

/-- A header as text. -/
def Header.text (h : Header) : String :=
  "IndexHeader \x7b format_version: " ++ toString h.version ++
    ", resolution_level: " ++ toString h.resolution ++ ", sample_cap: " ++ toString h.sampleCap ++
    ", sample_seed: " ++ toString h.seed ++ ", partition_count: " ++ toString h.partitions ++
    ", partition_fingerprint: " ++ toString h.fingerprint ++ " \x7d"

/-- How an index answers. -/
structure Options where
  /-- How many entries, nearest by degrees, are compared by distance. -/
  candidates : Nat
  /-- How many answers are remembered at most. -/
  memoCapacity : Nat
  /-- The decimals to which a query is rounded. -/
  decimals : Nat
  deriving DecidableEq, Repr

end RoadRouting.Snap
