/-!
# A seeded source of words

A generator of 64-bit words with a state of four words, combined by addition and rotation. The state
is filled from one seed by a linear congruential generator whose output is permuted.
-/

namespace RoadRouting.Sampling
set_option autoImplicit false

/-- The state of a generator. -/
structure Generator where
  a : UInt64
  b : UInt64
  c : UInt64
  d : UInt64
  deriving Repr

/-- Rotates a 64-bit word to the left, by less than its width and more than nothing. -/
def rotateLeft (x by_ : UInt64) : UInt64 := (x <<< by_) ||| (x >>> (64 - by_))

/-- Rotates a 32-bit word to the right. -/
def rotateRight (x by_ : UInt32) : UInt32 := (x >>> by_) ||| (x <<< ((32 - by_) % 32))

namespace Generator

/-- The next state of the seeding sequence. -/
def seedStep (s : UInt64) : UInt64 := s * 6364136223846793005 + 11634580027462260723

/-- The 32-bit output of a state of the seeding sequence. -/
def seedOutput (s : UInt64) : UInt32 :=
  rotateRight (((s >>> 18) ^^^ s) >>> 27).toUInt32 (s >>> 59).toUInt32

/-- Two successive outputs as one word, the first one in the lower half, and the state after them. -/
def seedWord (s : UInt64) : UInt64 × UInt64 :=
  let s := seedStep s
  let low := (seedOutput s).toUInt64
  let s := seedStep s
  (low ||| ((seedOutput s).toUInt64 <<< 32), s)

/-- The generator that starts from a seed. -/
def ofSeed (seed : UInt64) : Generator :=
  let (a, s) := seedWord seed
  let (b, s) := seedWord s
  let (c, s) := seedWord s
  let (d, _) := seedWord s
  ⟨a, b, c, d⟩

/-- The fraction of the golden ratio in 64 bits; it spreads neighbouring keys over all seeds. -/
def golden : UInt64 := 0x9e3779b97f4a7c15

/-- The generator for one key of a run with a seed. -/
def ofKey (seed key : UInt64) : Generator := ofSeed (seed ^^^ key * golden)

/-- A 64-bit word and the generator after it. -/
def next64 (g : Generator) : UInt64 × Generator :=
  let word := rotateLeft (g.a + g.d) 23 + g.a
  let c := g.c ^^^ g.a
  let d := g.d ^^^ g.b
  (word, ⟨g.a ^^^ d, g.b ^^^ c, c ^^^ (g.b <<< 17), rotateLeft d 45⟩)

/-- A 32-bit word, the upper half of a 64-bit one, and the generator after it. -/
def next32 (g : Generator) : UInt32 × Generator :=
  let (word, g) := g.next64
  ((word >>> 32).toUInt32, g)

end Generator
end RoadRouting.Sampling
