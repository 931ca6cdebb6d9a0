import RoadRouting.Sampling.Generator
import Std.Data.HashSet

/-!
# Choosing indices at random

`choose` takes a number of distinct indices below a length, each set of that size with the same
chance, in ascending order. Three methods do the work, depending on the length and the number: one
index at a time from a growing range, exchanging the front of the whole range, or drawing until an
unseen index comes.
-/

namespace RoadRouting.Sampling
set_option autoImplicit false

/-- How many words a single draw looks at before it settles for zero. -/
def patience : Nat := 1 <<< 62

/-- Scales words of `bits` bits to numbers below `size` and takes the first whose remainder does not
exceed `zone`, so that every number has the same chance. -/
def scaled (bits : Nat) (word : Generator → Nat × Generator) (size zone : Nat) :
    Nat → Generator → Nat × Generator
  | 0, g => (0, g)
  | tries + 1, g =>
    let (w, g) := word g
    if w * size % 1 <<< bits ≤ zone then ((w * size) >>> bits, g)
    else scaled bits word size zone tries g

/-- A 32-bit word as a number. -/
def word32 (g : Generator) : Nat × Generator :=
  let (w, g) := g.next32
  (w.toNat, g)

/-- A 64-bit word as a number. -/
def word64 (g : Generator) : Nat × Generator :=
  let (w, g) := g.next64
  (w.toNat, g)

/-- A number below `size` from 32-bit words. The zone is the greatest multiple of `size` by a power of
two that fits. -/
def below (size : Nat) (g : Generator) : Nat × Generator :=
  scaled 32 word32 size (size <<< (31 - size.log2) - 1) patience g

/-- A number below `size` from words of `bits` bits. The zone is the greatest multiple of `size` that
fits. -/
def belowExactly (bits : Nat) (word : Generator → Nat × Generator) (size : Nat) (g : Generator) :
    Nat × Generator :=
  let top := 1 <<< bits - 1
  scaled bits word size (top - (top - size + 1) % size) patience g

/-- The indices picked so far, the latest first, and the generator. -/
structure Draft where
  picked : List Nat
  source : Generator

/-- Draws an index up to `k`, and takes `k` itself when the index has been picked. -/
def Draft.widen (d : Draft) (k : Nat) : Draft :=
  let (t, g) := below (k + 1) d.source
  ⟨(if d.picked.contains t then k else t) :: d.picked, g⟩

/-- Draws an index up to `i` and drops it. -/
def Draft.spend (d : Draft) (i : Nat) : Draft := { d with source := (below (i + 1) d.source).2 }

/-- One index at a time, from a range that grows to the whole length. From fifty indices on, the draws
of a shuffle follow. -/
def byWidening (len amount : Nat) (g : Generator) : Draft :=
  let d := (List.range' (len - amount) amount).foldl Draft.widen ⟨[], g⟩
  if amount < 50 then d else (List.range' 1 (amount - 1)).reverse.foldl Draft.spend d

/-- A range in disorder and the generator. -/
structure Deck where
  cards : Array Nat
  source : Generator

/-- Exchanges the card at `i` with one drawn from there on. -/
def Deck.exchange (len : Nat) (d : Deck) (i : Nat) : Deck :=
  let (t, g) := below (len - i) d.source
  ⟨d.cards.swapIfInBounds i (i + t), g⟩

/-- Exchanges the first cards of the whole range. -/
def byExchange (len amount : Nat) (g : Generator) : Draft :=
  let d := (List.range amount).foldl (Deck.exchange len) ⟨Array.range len, g⟩
  ⟨d.cards.toList.take amount, d.source⟩

/-- The indices picked so far, as a set too. -/
structure Hand where
  picked : List Nat
  seen : Std.HashSet Nat
  source : Generator

/-- The least index that has not been seen. -/
def firstUnseen (len : Nat) (seen : Std.HashSet Nat) : Nat :=
  ((List.range len).find? fun i => !seen.contains i).getD 0

/-- Draws until an unseen index comes; when the tries are used up, the least unseen index will do. -/
def drawUnseen (len : Nat) (draw : Generator → Nat × Generator) (seen : Std.HashSet Nat) :
    Nat → Generator → Nat × Generator
  | 0, g => (firstUnseen len seen, g)
  | tries + 1, g =>
    let (t, g) := draw g
    if seen.contains t then drawUnseen len draw seen tries g else (t, g)

/-- Adds an unseen index. -/
def Hand.deal (len : Nat) (draw : Generator → Nat × Generator) (h : Hand) (_ : Nat) : Hand :=
  let (t, g) := drawUnseen len draw h.seen patience h.source
  ⟨t :: h.picked, h.seen.insert t, g⟩

/-- Draws until an unseen index comes, for each index. -/
def byRejection (len amount : Nat) (draw : Generator → Nat × Generator) (g : Generator) : Draft :=
  let h := (List.range amount).foldl (Hand.deal len draw) ⟨[], ∅, g⟩
  ⟨h.picked, h.source⟩

/-- The ways to choose. -/
inductive Method where
  | widening
  | exchange
  | rejection
  | wideRejection
  deriving DecidableEq, Repr

/-- The method that is likely to be the fastest: few indices are picked one by one; a large part of a
range is picked by exchange. -/
def Method.of (len amount : Nat) : Method :=
  if 1 <<< 32 ≤ len then .wideRejection
  else
    let short := len < 500000
    let n : Float32 := amount.toUInt32.toFloat32
    let l : Float32 := len.toUInt32.toFloat32
    if amount < 163 then
      let (square, linear) : Float32 × Float32 :=
        if short then (1.6, 10.0) else (8.0 / 45.0, 70.0 / 9.0)
      if 11 < amount && l < (linear + square * n) * n then .exchange else .widening
    else
      let share : Float32 := if short then 270.0 else 330.0 / 9.0
      if l < share * n then .exchange else .rejection

/-- Chooses by the given method. -/
def Method.run (m : Method) (len amount : Nat) (g : Generator) : Draft :=
  match m with
  | .widening => byWidening len amount g
  | .exchange => byExchange len amount g
  | .rejection => byRejection len amount (belowExactly 32 word32 len) g
  | .wideRejection => byRejection len amount (belowExactly 64 word64 len) g

/-- Distinct indices below `len` in ascending order, `amount` of them or all there are. -/
def choose (len amount : Nat) (g : Generator) : List Nat × Generator :=
  if len ≤ amount then (List.range len, g)
  else
    let d := (Method.of len amount).run len amount g
    (d.picked.mergeSort (· ≤ ·), d.source)

end RoadRouting.Sampling
