import RoadRouting.Decimal.Render

/-!
# Points on the globe

A coordinate in degrees, its great-circle distance to another one, and the straight line between two
of them in degree space.
-/

namespace RoadRouting
set_option autoImplicit false

/-- A coordinate: degrees north and degrees east. Equality is that of floats, so a NaN differs from
itself and the two zeros agree. -/
structure Point where
  lat : Float
  lon : Float
  deriving BEq, Inhabited, Repr

namespace Geo

/-- The mean radius of the earth in metres. -/
def earthRadius : Float := 6371000.0

/-- The ratio of a circle's circumference to its diameter. -/
def pi : Float := 3.141592653589793

/-- Degrees as radians. -/
def radians (degrees : Float) : Float := degrees * (pi / 180.0)

/-- Radians as degrees. -/
def degrees (radians : Float) : Float := radians * (180.0 / pi)

/-- The square. -/
def sq (x : Float) : Float := x * x

/-- The lesser of `x` and one; one when `x` is no number. -/
def atMostOne (x : Float) : Float := if x < 1.0 then x else 1.0

end Geo

namespace Point
open Geo

/-- The great-circle distance in metres, by the haversine formula. -/
def distance (a b : Point) : Float :=
  let dLat := radians (b.lat - a.lat)
  let dLon := radians (b.lon - a.lon)
  let h := sq (dLat * 0.5).sin +
    (radians a.lat).cos * (radians b.lat).cos * sq (dLon * 0.5).sin
  2.0 * earthRadius * (atMostOne h.sqrt).asin

/-- The point at the fraction `t` of the way from `a` to `b`. -/
def lerp (a b : Point) (t : Float) : Point :=
  { lat := a.lat + t * (b.lat - a.lat), lon := a.lon + t * (b.lon - a.lon) }

/-- Whether the point lies on the globe: both coordinates finite, at most 90 degrees from the equator
and at most 180 from the meridian. -/
def isValid (p : Point) : Bool :=
  p.lat.isFinite && p.lon.isFinite && p.lat.abs ≤ 90.0 && p.lon.abs ≤ 180.0

/-- Whether both coordinates are numbers. -/
def isNumeric (p : Point) : Bool := !p.lat.isNaN && !p.lon.isNaN

/-- The point as text, with six decimals. -/
def text (p : Point) : String :=
  "(" ++ Decimal.fixed 6 p.lat ++ ", " ++ Decimal.fixed 6 p.lon ++ ")"

end Point
end RoadRouting
