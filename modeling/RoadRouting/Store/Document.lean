import RoadRouting.Dataset.Table
import RoadRouting.Json.Read
import RoadRouting.Snap.Entry
import RoadRouting.Store.Files

/-!
# Contents of files

What the files of a dataset hold: text, a JSON document, a table, or one of the two parts of an
archived snap index.
-/

namespace RoadRouting.Store
set_option autoImplicit false

/-- The content of a file. -/
inductive Document where
  | text (content : String)
  | json (content : Json)
  | table (content : Dataset.Table)
  | entries (header : Snap.Header) (content : List Snap.Entry)
  | coordinates (header : Snap.Header) (content : List (Int64 × Point))

/-- The JSON document of a file; a text is read. -/
def Document.json? : Document → Option Json
  | .text s => Json.read? s
  | .json j => some j
  | _ => none

/-- An empty file holds the empty text. -/
instance : EmptyCollection Document := ⟨.text ""⟩

/-- A tree of such files. -/
abbrev Disk := Files Document

end RoadRouting.Store
