import FeatureTransform.Feature.ReferenceSystem
import FeatureTransform.Json.Basic

/-!
# Projection

Geometries are carried from one reference system to another by moving their positions. A position
is an array that begins with a number, at any depth under `coordinates`; the parts of a collection
stand under `geometries`. Everything else stays as it is.
-/

namespace FeatureTransform

/-! ## Points -/

/-- A map of the plane. -/
abbrev PointMap := Float → Float → Float × Float

/-- The radius of the sphere that stands for the earth, in metres. -/
def earthRadius : Float := 6378137.0

/-- The number π. -/
def pi : Float := 3.14159265358979323846264338327950288

/-- The latitude at which the square map of the earth ends. -/
def maxLatitude : Float := 85.05112877980659

/-- Degrees as radians. -/
def radians (degrees : Float) : Float := degrees * (pi / 180.0)

/-- Radians as degrees. -/
def degrees (radians : Float) : Float := radians * 57.29577951308232

/-- The latitude, or the nearest one that the map shows. -/
def clampLatitude (latitude : Float) : Float :=
  if latitude < -maxLatitude then -maxLatitude
  else if maxLatitude < latitude then maxLatitude
  else latitude

/-- Degrees to metres of the spherical mercator projection. -/
def toMercator : PointMap := fun longitude latitude =>
  let latitude := clampLatitude latitude
  (earthRadius * radians longitude,
    earthRadius * (pi / 4.0 + radians latitude / 2.0).tan.log)

/-- Metres of the spherical mercator projection to degrees. -/
def fromMercator : PointMap := fun x y =>
  (degrees (x / earthRadius), degrees (2.0 * (y / earthRadius).exp.atan - pi / 2.0))

/-! ## Geometries -/

/-- A position with its first two numbers moved, if it has two. -/
def movePosition (f : PointMap) : List Json → List Json
  | .number x :: .number y :: rest =>
    let (x, y) := f x.toFloat y.toFloat
    .ofFloat x :: .ofFloat y :: rest
  | items => items

mutual

/-- Coordinates with each position moved. -/
def moveCoordinates (f : PointMap) : Json → Json
  | .array items =>
    match items with
    -- a position may be too short to be moved
    | .number x :: rest => .array (movePosition f (.number x :: rest))
    | items => .array (moveItems f items)
  | other => other

/-- Each of some coordinates with its positions moved. -/
def moveItems (f : PointMap) : List Json → List Json
  | [] => []
  | item :: rest => moveCoordinates f item :: moveItems f rest

end

mutual

/-- A geometry with each position moved. -/
def moveGeometry (f : PointMap) : Json → Json
  | .object members => .object (moveMembers f members)
  | other => other

/-- The members of a geometry with each position moved. -/
def moveMembers (f : PointMap) : List (String × Json) → List (String × Json)
  | [] => []
  | (name, value) :: rest => (name, moveMember f name value) :: moveMembers f rest

/-- A member of a geometry with each position moved. -/
def moveMember (f : PointMap) (name : String) : Json → Json
  | .array items =>
    if name = "coordinates" then moveCoordinates f (.array items)
    else if name = "geometries" then .array (moveParts f items)
    else .array items
  | other => other

/-- The parts of a collection with each position moved. -/
def moveParts (f : PointMap) : List Json → List Json
  | [] => []
  | part :: rest => moveGeometry f part :: moveParts f rest

end

/-- There is no way from one system to the other. -/
structure NoProjection where
  /-- where the coordinates come from -/
  source : ReferenceSystem
  /-- where they should go -/
  target : ReferenceSystem
deriving DecidableEq, Repr

/-- The sentence that describes the error. -/
def NoProjection.message (e : NoProjection) : String :=
  s!"cannot reproject from {e.source.name} to {e.target.name}"

/-- The geometry carried from one system to another. -/
def reproject (source target : ReferenceSystem) (geometry : Json) : Except NoProjection Json :=
  if source = target then .ok geometry
  else if source = .wgs84 ∧ target = .webMercator then .ok (moveGeometry toMercator geometry)
  else if source = .webMercator ∧ target = .wgs84 then .ok (moveGeometry fromMercator geometry)
  else .error ⟨source, target⟩

end FeatureTransform
