import RoadRouting.Json.Basic

/-!
# Records in JSON

A record is an object that names its fields, or an array that lists them in order. An object may hold
members that are no fields; it may not name a field twice. An array may stop early.
-/

namespace RoadRouting.Json
set_option autoImplicit false

/-- The values of a field with the given spellings among the members. -/
def valuesOf (spellings : List String) (members : List (Option String × Json)) : List Json :=
  members.filterMap fun m => match m.1 with
    | some name => if name ∈ spellings then some m.2 else none
    | none => none

/-- The value of each field, in the order of the fields, or nothing when the document is no record of
these fields. -/
def fields? (names : List (List String)) : Json → Option (List (Option Json))
  | .array items =>
    if items.length ≤ names.length then
      some (items.map some ++ List.replicate (names.length - items.length) none)
    else none
  | .object members =>
    if members.all (·.1.isSome) then
      names.mapM fun spellings => match valuesOf spellings members with
        | [] => some none
        | [j] => some (some j)
        | _ => none
    else none
  | _ => none

/-- A string with content. -/
def asString? : Json → Option String
  | .text content => content
  | _ => none

/-- An unsigned integer below `bound`. -/
def asNat? (bound : Nat) : Json → Option Nat
  | .number n => n.toNat? bound
  | _ => none

/-- A float; an integer will do. -/
def asFloat? : Json → Option Float
  | .number n => n.toFloat?
  | _ => none

/-- A list whose items `item` accepts. -/
def asList? {β : Type} (item : Json → Option β) : Json → Option (List β)
  | .array items => items.mapM item
  | _ => none

/-- A map from names to values that `item` accepts, in written order. -/
def asMap? {β : Type} (item : Json → Option β) : Json → Option (List (String × β))
  | .object members => members.mapM fun m => do return (← m.1, ← item m.2)
  | _ => none

/-- A value that may be missing: null stands for its absence. -/
def asOption? {β : Type} (item : Json → Option β) : Json → Option (Option β)
  | .null => some none
  | j => (item j).map some

/-- The value of a field, or its default when the record leaves it out. -/
def orDefault {β : Type} (item : Json → Option β) (default : β) : Option Json → Option β
  | none => some default
  | some j => item j

end RoadRouting.Json
