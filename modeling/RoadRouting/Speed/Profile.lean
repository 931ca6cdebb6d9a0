import RoadRouting.Speed.Limit
import Std.Data.TreeMap

/-!
# Speeds by class of road

A posted limit that can be read comes first, then a replacement for the class, then the table, then
one speed for all other classes. All of these are finite and at least one kilometre per hour.
-/

namespace RoadRouting.Speed
set_option autoImplicit false

/-- The speed on roads of a class that the table lacks. -/
def fallback : Float := 50.0

/-- The usual speed by class in kilometres per hour. -/
def table : List (String × Float) :=
  [("motorway", 120.0), ("motorway_link", 80.0), ("trunk", 100.0), ("trunk_link", 70.0),
    ("primary", 80.0), ("primary_link", 60.0), ("secondary", 50.0), ("secondary_link", 40.0),
    ("tertiary", 60.0), ("tertiary_link", 40.0), ("unclassified", 50.0), ("residential", 30.0),
    ("service", 20.0), ("living_street", 10.0), ("pedestrian", 5.0), ("track", 30.0),
    ("bus_guideway", 50.0), ("raceway", 200.0), ("road", 50.0), ("busway", 50.0), ("footway", 5.0),
    ("bridleway", 10.0), ("steps", 3.0), ("path", 5.0), ("cycleway", 15.0)]

/-- The usual speed of a class that the table holds. -/
def ofClass? (className : String) : Option Float := table.lookup className

/-- Speeds by class that replace those of the table. -/
abbrev Replacements := Std.TreeMap String Float compare

/-- The speeds that hold on a network. -/
structure Profile where
  replacements : Replacements

namespace Profile

/-- The profile without replacements. -/
def standard : Profile := ⟨∅⟩

/-- The profile with the plausible ones of the replacements. -/
def ofReplacements (r : Replacements) : Profile := ⟨r.filter fun _ kmh => isPlausible kmh⟩

/-- The speed on a road in kilometres per hour. -/
def kmh (p : Profile) (className : String) (limit : Option String) : Float :=
  match limit.bind ofLimit? with
  | some v => v
  | none => match p.replacements[className]? with
    | some v => v
    | none => (ofClass? className).getD fallback

/-- The seconds that a road of some metres takes. -/
def seconds (p : Profile) (metres : Float) (className : String) (limit : Option String) : Float :=
  metres / (p.kmh className limit / 3.6)

end Profile
end RoadRouting.Speed
