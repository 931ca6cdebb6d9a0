import RoadRouting.Geo.Point
import RoadRouting.Grid.Place

/-!
# From points to cells and back

A point of the globe belongs to the face whose centre is nearest. It is projected from the centre of
the globe onto that face's plane, and the nearest lattice point there is the centre of its cell.
-/

namespace RoadRouting.Grid
set_option autoImplicit false
open Geo

/-- The centres of the faces, latitude and longitude in radians, and the direction of each face's
first axis as an azimuth there. -/
def frames : Array (Float × Float × Float) :=
  #[
    (0.803582649718989942, 1.248397419617396099, 5.619958268523939882),
    (1.307747883455638156, 2.536945009877921159, 5.760339081714187279),
    (1.054751253523952054, -1.347517358900396623, 0.780213654393430055),
    (0.600191595538186799, -0.450603909469755746, 0.430469363979999913),
    (0.491715428198773866, 0.401988202911306943, 6.130269123335111400),
    (0.172745327415618701, 1.678146885280433686, 2.692877706530642877),
    (0.605929321571350690, 2.953923329812411617, 2.982963003477243874),
    (0.427370518328979641, -1.888876200336285401, 3.532912002790141181),
    (-0.079066118549212831, -0.733429513380867741, 3.494305004259568154),
    (-0.230961644455383637, 0.506495587332349035, 3.003214169499538391),
    (0.079066118549212831, 2.408163140208925497, 5.930472956509811562),
    (0.230961644455383637, -2.635097066257444203, 0.138378484090254847),
    (-0.172745327415618701, -1.463445768309359553, 0.448714947059150361),
    (-0.605929321571350690, -0.187669323777381622, 0.158629650112549365),
    (-0.427370518328979641, 1.252716453253507838, 5.891865957979238535),
    (-0.600191595538186799, 2.690988744120037492, 2.711123289609793325),
    (-0.491715428198773866, -2.739604450678486295, 3.294508837434268316),
    (-0.803582649718989942, -1.893195233972397139, 3.804819692245439833),
    (-1.307747883455638156, -0.604647643711872080, 3.664438879055192436),
    (-1.054751253523952054, 1.794075294689396615, 2.361378999196363184)]

/-- A point in space. -/
structure Space where
  x : Float
  y : Float
  z : Float

/-- The point of the unit sphere at a latitude and longitude in radians. -/
def Space.ofAngles (lat lon : Float) : Space :=
  ⟨lon.cos * lat.cos, lon.sin * lat.cos, lat.sin⟩

/-- The squared distance of two points in space. -/
def Space.sqDist (a b : Space) : Float := sq (a.x - b.x) + sq (a.y - b.y) + sq (a.z - b.z)

/-- The centres of the faces in space. -/
def centres : Array Space := frames.map fun (lat, lon, _) => .ofAngles lat lon

/-- The distance between neighbouring base cells, as a fraction of the tangent's unit. -/
def baseSpacing : Float := 0.38196601125010500003

/-- The angle between the lattices of two successive resolutions. -/
def twist : Float := 0.333473172251832115336090755351601070065900389

/-- Half the square root of three: the height of the lattice's triangles. -/
def rowHeight : Float := (3.0 : Float).sqrt / 2.0

/-- How many steps of a resolution make a step of resolution zero. -/
def stepsPerBase (r : Resolution) : Float :=
  (List.range r.val).foldl (fun s _ => s * (7.0 : Float).sqrt) 1.0

/-- An angle in the full circle from zero. -/
def positiveAngle (a : Float) : Float :=
  let t := if a < 0.0 then a + 2.0 * pi else a
  if 2.0 * pi ≤ a then t - 2.0 * pi else t

/-- An angle in the half circles around zero. -/
def signedAngle (a : Float) : Float :=
  if pi < a then a - 2.0 * pi else if a < -pi then a + 2.0 * pi else a

/-- The direction from one latitude and longitude to another. -/
def azimuth (lat lon toLat toLon : Float) : Float :=
  Float.atan2 (toLat.cos * (toLon - lon).sin)
    (lat.cos * toLat.sin - lat.sin * toLat.cos * (toLon - lon).cos)

/-- The face whose centre is nearest to a point in space, and the squared distance. -/
def nearestFace (p : Space) : Face × Float :=
  (List.finRange 20).foldl
    (fun best f =>
      let d := p.sqDist (centres.getD f.val ⟨0.0, 0.0, 0.0⟩)
      if d < best.2 then (f, d) else best)
    (.first, p.sqDist (centres.getD 0 ⟨0.0, 0.0, 0.0⟩))

/-- The lattice point nearest to a point of the plane: one of the four corners around it. -/
def nearestHex (x y : Float) : Hex :=
  let j := y / rowHeight
  let i := x + j / 2.0
  let low : Hex := ⟨i.floor.toInt64.toInt, j.floor.toInt64.toInt⟩
  let far (h : Hex) : Float :=
    sq (x - (Float.ofInt h.i - 0.5 * Float.ofInt h.j)) + sq (y - Float.ofInt h.j * rowHeight)
  [low + ⟨0, 1⟩, low + ⟨1, 0⟩, low + ⟨1, 1⟩].foldl
    (fun best h => if far h < far best then h else best) low

/-- Angles this close to a face's centre count as the centre. -/
def negligible : Float := 1e-16

/-- The lattice place of a point. -/
def placeOf (p : Point) (r : Resolution) : Place :=
  let lat := radians p.lat
  let lon := radians p.lon
  let (face, d) := nearestFace (.ofAngles lat lon)
  let angle := (1.0 - d / 2.0).acos
  if angle < negligible then ⟨face, .origin⟩
  else
    let (faceLat, faceLon, axis) := frames.getD face.val (0.0, 0.0, 0.0)
    let theta := positiveAngle (axis - positiveAngle (azimuth faceLat faceLon lat lon))
    let theta := if isOdd r.val then positiveAngle (theta - twist) else theta
    let radius := angle.tan / baseSpacing * stepsPerBase r
    ⟨face, nearestHex (radius * theta.cos) (radius * theta.sin)⟩

/-- The cell of a resolution that contains a point, if the point lies on the globe. -/
def Cell.containing (p : Point) (r : Resolution) : Option Cell :=
  if p.isValid then some (.ofPlace (placeOf p r) r) else none

theorem Cell.resolution_containing {p : Point} {r : Resolution} {c : Cell}
    (h : Cell.containing p r = some c) : c.resolution = r := by
  unfold containing at h
  split at h
  · cases h; exact resolution_ofPlace _ _
  · cases h

theorem Cell.isValid_of_containing {p : Point} {r : Resolution} {c : Cell}
    (h : Cell.containing p r = some c) : p.isValid = true := by
  unfold containing at h
  split at h
  · assumption
  · cases h

/-- Every point on the globe lies in a cell. -/
theorem Cell.isSome_containing {p : Point} (h : p.isValid = true) (r : Resolution) :
    (Cell.containing p r).isSome = true := by
  simp [containing, h]

/-- The point of the globe at a place of a resolution's lattice. -/
def pointAt (p : Place) (r : Resolution) : Point :=
  let (faceLat, faceLon, axis) := frames.getD p.face.val (0.0, 0.0, 0.0)
  let x := Float.ofInt p.point.i - 0.5 * Float.ofInt p.point.j
  let y := Float.ofInt p.point.j * rowHeight
  let radius := (sq x + sq y).sqrt
  if radius < negligible then ⟨degrees faceLat, degrees faceLon⟩
  else
    let angle := (radius / stepsPerBase r * baseSpacing).atan
    let theta := Float.atan2 y x
    let theta := if isOdd r.val then positiveAngle (theta + twist) else theta
    let az := positiveAngle (axis - theta)
    let height := faceLat.sin * angle.cos + faceLat.cos * angle.sin * az.cos
    let height := if height < -1.0 then -1.0 else if 1.0 < height then 1.0 else height
    let lon := faceLon +
      Float.atan2 (az.sin * angle.sin * faceLat.cos) (angle.cos - faceLat.sin * height)
    ⟨degrees height.asin, degrees (signedAngle lon)⟩

/-- The centre of a cell. -/
def Cell.centre (c : Cell) : Point := pointAt c.place c.resolution

end RoadRouting.Grid
