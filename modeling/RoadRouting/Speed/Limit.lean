import RoadRouting.Decimal.Read
import RoadRouting.Text.Blank

/-!
# Posted limits

A posted limit is a number with an optional unit. Blanks around the text and in front of the unit do
not matter, nor does the letter case. A limit that is not finite or below one kilometre per hour is
taken for bad data.
-/

namespace RoadRouting.Speed
set_option autoImplicit false

/-- The slowest speed that is believed, in kilometres per hour. -/
def slowest : Float := 1.0

/-- Whether a speed can be that of a road. -/
def isPlausible (kmh : Float) : Bool := kmh.isFinite && slowest ≤ kmh

/-- Kilometres in a mile. -/
def kmPerMile : Float := 1.60934

/-- The units of a limit, with their values in kilometres per hour, in the order in which they are
tried. -/
def units : List (List Char × Float) :=
  [(['m', 'p', 'h'], kmPerMile), (['k', 'm', '/', 'h'], 1.0), (['k', 'm', 'h'], 1.0),
    (['k', 'p', 'h'], 1.0)]

/-- The text in front of `ending`, if it ends in that. -/
def stripEnding? (ending cs : List Char) : Option (List Char) :=
  if ending.isSuffixOf cs then some (cs.take (cs.length - ending.length)) else none

/-- The number part of a limit and the value of its unit. -/
def splitUnit (cs : List Char) : List Char × Float :=
  (units.findSome? fun (unit, value) => (stripEnding? unit cs).map (·, value)).getD (cs, 1.0)

/-- The speed in kilometres per hour that a posted limit means. -/
def ofLimit? (raw : String) : Option Float := do
  let (number, value) := splitUnit ((Text.trim raw.toList).map Char.toLower)
  let kmh := (← Decimal.read? (Text.trim number)) * value
  if isPlausible kmh then some kmh else none

end RoadRouting.Speed
