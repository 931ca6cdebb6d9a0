/-!
# Quantities

Lengths, times and costs are of any type with the operations below. A search adds and compares costs
and orders its frontier by `Cost.rank`; only speeds take products and quotients. Floats are the
quantities of a running router.
-/

namespace RoadRouting.Network
set_option autoImplicit false

/-- What a search needs of costs. -/
class Cost (α : Type) extends Zero α, Add α, LT α where
  decLt : DecidableLT α
  /-- The cost of what has not been reached. -/
  infinite : α
  /-- The order in which a frontier gives out its entries; total, unlike the comparison of floats. -/
  rank : α → α → Ordering

instance Cost.decidableLt {α : Type} [Cost α] (a b : α) : Decidable (a < b) := Cost.decLt a b

/-- What a network needs of lengths and times. -/
class Quantity (α : Type) extends Cost α, Mul α, Div α where
  one : α
  /-- One metre per second in kilometres per hour. -/
  kmhPerMetreSecond : α
  /-- The larger of two speeds. -/
  larger : α → α → α

/-- Orders all floats: those that are no numbers come first, then the negative ones, then the
positive ones; a negative zero comes before a positive one. -/
def floatKey (x : Float) : UInt64 :=
  if x.isNaN then 0
  else
    let bits := x.toBits
    if bits < 0x8000000000000000 then bits + 0x8000000000000000 else ~~~bits

/-- The order of floats by `floatKey`. -/
def floatRank (x y : Float) : Ordering := compare (floatKey x) (floatKey y)

/-- The larger of two floats; a float that is no number gives way to the other. -/
def largerFloat (x y : Float) : Float := if x.isNaN then y else if x < y then y else x

instance : Quantity Float where
  zero := 0.0
  decLt := inferInstance
  infinite := 1.0 / 0.0
  rank := floatRank
  one := 1.0
  kmhPerMetreSecond := 3.6
  larger := largerFloat

end RoadRouting.Network
