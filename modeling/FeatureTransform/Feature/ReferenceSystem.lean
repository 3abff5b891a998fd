import FeatureTransform.Text.Case
import FeatureTransform.Text.Split

/-!
# Reference systems

The system that coordinates refer to is named by an authority and a number, such as `EPSG:4326`.
Two names are known to the library by what they mean: degrees of longitude and latitude, and the
spherical mercator projection of web maps.
-/

namespace FeatureTransform

/-- A reference system by its name: the authority in upper case, a colon, digits. -/
structure ReferenceSystem where
  /-- the name -/
  name : String
deriving DecidableEq, Repr

namespace ReferenceSystem

/-- The system that a text names, whatever the case of the authority. -/
def parse? (s : String) : Option ReferenceSystem :=
  match Text.splitOnce? ':' (Text.trim s.toList) with
  | none => none
  | some (authority, code) =>
    if authority = [] ∨ code = [] ∨ !code.all Char.isDigit then none
    else some ⟨String.ofList (Text.upper authority ++ ':' :: code)⟩

/-- Degrees of longitude and latitude. -/
def wgs84 : ReferenceSystem := ⟨"EPSG:4326"⟩

/-- Metres of the spherical mercator projection. -/
def webMercator : ReferenceSystem := ⟨"EPSG:3857"⟩

end ReferenceSystem

end FeatureTransform
