/-!
# Numbers of nodes and classes

Nodes and classes of roads are numbered in the order in which a network learns of them. A number fits
in 32 or 16 bits, and the greatest such number is kept free.
-/

namespace RoadRouting.Network
set_option autoImplicit false

/-- The number of a node in a network. -/
structure NodeId where
  index : Nat
  deriving DecidableEq, Repr

/-- The number of a class of roads in a network. -/
structure ClassId where
  index : Nat
  deriving DecidableEq, Repr

namespace NodeId

/-- The number that no node has. -/
def invalid : NodeId := ⟨1 <<< 32 - 1⟩

/-- The node number with a given index, if it fits. -/
def ofIndex? (n : Nat) : Option NodeId := if n < 1 <<< 32 then some ⟨n⟩ else none

/-- The number as text. -/
def text (v : NodeId) : String := "NodeId(" ++ toString v.index ++ ")"

end NodeId

namespace ClassId

/-- The number that no class has. -/
def invalid : ClassId := ⟨1 <<< 16 - 1⟩

/-- The class number with a given index, if it fits. -/
def ofIndex? (n : Nat) : Option ClassId := if n < 1 <<< 16 then some ⟨n⟩ else none

/-- The number as text. -/
def text (c : ClassId) : String := "ClassId(" ++ toString c.index ++ ")"

end ClassId
end RoadRouting.Network
