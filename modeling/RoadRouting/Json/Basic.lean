import RoadRouting.Json.Number

/-!
# JSON documents

The tree of a JSON document, close to the text: numbers stay as written, members keep their order and
their repetitions, and a string whose escapes name half of a surrogate pair has no content.
-/

namespace RoadRouting
set_option autoImplicit false

/-- A JSON document. -/
inductive Json where
  | null
  | bool (value : Bool)
  | number (value : Json.Number)
  | text (content : Option String)
  | array (items : List Json)
  | object (members : List (Option String × Json))

namespace Json

/-- A string of a document. -/
def string (s : String) : Json := .text (some s)

/-- A non-negative integer of a document. -/
def nat (n : Nat) : Json := .number (.ofNat n)

end Json
end RoadRouting
