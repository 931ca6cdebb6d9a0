import RoadRouting.Json.Basic
import RoadRouting.Text.Blank
import RoadRouting.Text.Quoted

/-!
# What a search minimises

The two objectives of a route, their names and how they are read.
-/

namespace RoadRouting
set_option autoImplicit false

/-- What a shortest path is shortest in: seconds or metres. -/
inductive Objective where
  | time
  | distance
  deriving DecidableEq, Repr

namespace Objective

/-- The objective of a query that names none. -/
def standard : Objective := .time

/-- The name of an objective. -/
def name : Objective → String
  | .time => "time"
  | .distance => "distance"

/-- The objective that a word names: its own name or a longer one. -/
def ofWord? (word : String) : Option Objective :=
  if word = "time" ∨ word = "travel_time" then some .time
  else if word = "distance" ∨ word = "length" then some .distance
  else none

/-- Reads an objective; blanks around it do not matter. A word that names none is the error. -/
def read (s : String) : Except String Objective :=
  let word := Text.trimmed s
  match ofWord? word with
  | some o => .ok o
  | none => .error word

/-- What is said of a word that names no objective. -/
def unknown (word : String) : String := "unknown weight " ++ Text.quoted word

/-- The objective with exactly this name. -/
def ofName? (word : String) : Option Objective :=
  if word = "time" then some .time else if word = "distance" then some .distance else none

/-- An objective in JSON: its name, or an object with the name as its only member and nothing in it. -/
def ofJson? : Json → Option Objective
  | .text (some word) => ofName? word
  | .object [(some word, .null)] => ofName? word
  | _ => none

end Objective
end RoadRouting
