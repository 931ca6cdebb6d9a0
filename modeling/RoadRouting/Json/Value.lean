import RoadRouting.Json.Write

/-!
# Documents as values

A document can be held as plain values when it is not nested too deeply, every string has content and
every number is in range. A number is then an integer of 64 bits or a float, however it was written.
-/

namespace RoadRouting.Json
set_option autoImplicit false

mutual
/-- How many arrays and objects enclose the deepest part. -/
def depth : Json → Nat
  | .array items => 1 + depthOfItems items
  | .object members => 1 + depthOfMembers members
  | _ => 0
/-- The greatest depth among the items. -/
def depthOfItems : List Json → Nat
  | [] => 0
  | j :: rest => max j.depth (depthOfItems rest)
/-- The greatest depth among the members. -/
def depthOfMembers : List (Option String × Json) → Nat
  | [] => 0
  | (_, j) :: rest => max j.depth (depthOfMembers rest)
end

mutual
/-- Whether every string has content and every number a float, so that the document can be held as
plain values. -/
def wellFormed : Json → Bool
  | .number n => n.toFloat?.isSome
  | .text content => content.isSome
  | .array items => wellFormedItems items
  | .object members => wellFormedMembers members
  | _ => true
/-- `wellFormed` for all items. -/
def wellFormedItems : List Json → Bool
  | [] => true
  | j :: rest => j.wellFormed && wellFormedItems rest
/-- `wellFormed` for all members and their names. -/
def wellFormedMembers : List (Option String × Json) → Bool
  | [] => true
  | (k, j) :: rest => k.isSome && j.wellFormed && wellFormedMembers rest
end

/-- The number of a document that is held as a value: an integer when it fits in 64 bits, with a sign
only below zero, and otherwise a float. -/
def Number.held (n : Number) : Json :=
  let v := ofDigits n.whole
  if n.isInteger && (if n.negative then v ≠ 0 && v ≤ 1 <<< 63 else v < 1 <<< 64) then .number n
  else ((n.toFloat?).map float).getD .null

mutual
/-- A document whose numbers are held as values. -/
def held : Json → Json
  | .number n => n.held
  | .array items => .array (heldItems items)
  | .object members => .object (heldMembers members)
  | j => j
/-- `held` for all items. -/
def heldItems : List Json → List Json
  | [] => []
  | j :: rest => j.held :: heldItems rest
/-- `held` for all members. -/
def heldMembers : List (Option String × Json) → List (Option String × Json)
  | [] => []
  | (k, j) :: rest => (k, j.held) :: heldMembers rest
end

/-- How deeply a document of values is nested at most. -/
def maxDepth : Nat := 127

/-- The document as plain values. -/
def value? (j : Json) : Option Json :=
  if j.wellFormed && j.depth ≤ maxDepth then some j.held else none

end RoadRouting.Json
