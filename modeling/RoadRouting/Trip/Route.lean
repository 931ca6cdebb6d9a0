import RoadRouting.Dataset.Layout
import RoadRouting.Network.Search
import RoadRouting.Settings
import RoadRouting.Snap.Archive

/-!
# Routes, faults and warnings

What a route says, what can fail on the way to one, and what is worth a warning.
-/

namespace RoadRouting.Trip
set_option autoImplicit false
open Network (Full SearchFault)
open Store (Path)

/-- Which search found a route. -/
inductive Algorithm where
  | plain
  | guided
  | fallback
  deriving DecidableEq, Repr

/-- The name of a search. -/
def Algorithm.name : Algorithm → String
  | .plain => "plain"
  | .guided => "heuristic"
  | .fallback => "plain-fallback"

/-- A route: the nodes from end to end, the sums over its edges, the class of each edge, and how far
its ends were moved to reach the network. -/
structure Route (α : Type) where
  path : List Int64
  length : α
  travel : α
  classes : List String
  objective : Objective
  algorithm : Algorithm
  originSnap : Float
  destinationSnap : Float

/-- Kilometres per hour over a length in metres and a time in seconds; zero when no time passes. -/
def averageSpeed (length travel : Float) : Float :=
  if 0.0 < travel then (length / 1000.0) / (travel / 3600.0) else 0.0

/-- What makes a request fail. That there is no route is no fault. -/
inductive Fault where
  | settings (fault : Settings.Fault)
  | dataset (fault : Dataset.Fault)
  | full (fault : Full)
  /-- A node lies elsewhere than the snap index says. -/
  | disagreement (node : Int64) (indexed loaded : Point)
  /-- A node of the snap index is not in its partition. -/
  | missingNode (node : Int64) (cell : Grid.Cell)
  /-- The snap index broke down. No other fault ends the program. -/
  | breakdown (cause : Snap.Breakdown)

/-- The wording of a fault of settings. -/
def settingsMessage (f : Settings.Fault) : String := "configuration error: " ++ f.message

/-- The wording of a fault. -/
def Fault.message : Fault → String
  | .settings f => "configuration error: " ++ settingsMessage f
  | .dataset f => "partition data error: " ++ f.message
  | .full f => "spatial error: " ++ f.message
  | .disagreement node indexed loaded =>
    "node " ++ toString node ++ " is indexed at " ++ indexed.text ++ " but loaded at " ++ loaded.text
  | .missingNode node cell =>
    "indexed node " ++ toString node ++ " is missing from partition " ++ cell.text
  | .breakdown .incomparable => "what is no number cannot be compared"

/-- What is worth a warning. -/
inductive Warning where
  | thinCorridor (origin destination : Point) (available computed : Nat) (coverage : Float)
  | guidedFailed (fault : SearchFault)
  | stepLimit
  | discarded (dir : Path) (fault : Snap.ArchiveFault)
  | notSaved (dir : Path) (fault : Snap.ArchiveFault)

/-- The wording of a warning. -/
def Warning.message : Warning → String
  | .thinCorridor origin destination available computed coverage =>
    "corridor " ++ origin.text ++ " -> " ++ destination.text ++ ": only " ++ toString available ++ "/" ++
      toString computed ++ " cells available (" ++ Decimal.fixed 0 (coverage * 100.0) ++
      "%); the route crosses data that was not ingested"
  | .guidedFailed fault =>
    "heuristic search failed (" ++ fault.message ++ "), retrying with plain search"
  | .stepLimit => "plain search hit the step limit"
  | .discarded dir fault => "discarding spatial index in " ++ dir.text ++ ": " ++ fault.message
  | .notSaved dir fault =>
    "could not persist spatial index to " ++ dir.text ++ ": " ++ fault.message

end RoadRouting.Trip
