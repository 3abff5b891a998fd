import FeatureTransform.Json.Read
import FeatureTransform.Json.Write

/-!
# Records

A record is one feature: an id, a geometry, attributes. Its JSON form is a Feature object. A
document of features is a FeatureCollection, an array of Features or a single one.
-/

namespace FeatureTransform

/-- A feature. -/
structure Record where
  /-- its id, if it has one; never `null` -/
  id? : Option Json
  /-- its geometry, if it has one; always an object -/
  geometry : Option Json
  /-- its attributes, in increasing order of their distinct names -/
  attributes : List (String × Json)

/-- Why a JSON value is no feature or no document of features. -/
inductive ShapeError where
  /-- the value is no object -/
  | notFeature (value : Json)
  /-- the object says that it is something else -/
  | otherType (type : String)
  /-- the object does not say what it is -/
  | noType
  /-- the geometry is no object -/
  | badGeometry (value : Json)
  /-- the attributes are no object -/
  | badProperties (value : Json)
  /-- the features of a collection are no array -/
  | badFeatures (value : Json)
  /-- the value is neither object nor array -/
  | noFeatures (value : Json)

/-- The sentence that describes the error. -/
def ShapeError.message : ShapeError → String
  | .notFeature value => s!"expected a Feature object, got {value.kind}"
  | .otherType type => s!"expected type 'Feature', got '{type}'"
  | .noType => "feature has no 'type' member"
  | .badGeometry value => s!"geometry must be an object, got {value.kind}"
  | .badProperties value => s!"properties must be an object, got {value.kind}"
  | .badFeatures value => s!"features must be an array, got {value.kind}"
  | .noFeatures value => s!"expected a Feature, FeatureCollection or array, got {value.kind}"

namespace Record

/-! ## From JSON -/

/-- The text under the name `type`, if there is one. -/
def typeOf? (members : List (String × Json)) : Option String :=
  match Json.member? "type" members with
  | some (.string s) => some s
  | _ => none

/-- The geometry of a Feature. -/
def geometryOf (members : List (String × Json)) : Except ShapeError (Option Json) :=
  match Json.member? "geometry" members with
  | none | some .null => .ok none
  | some (.object g) => .ok (some (.object g))
  | some other => .error (.badGeometry other)

/-- The attributes of a Feature. -/
def attributesOf (members : List (String × Json)) : Except ShapeError (List (String × Json)) :=
  match Json.member? "properties" members with
  | none | some .null => .ok []
  | some (.object attributes) => .ok attributes
  | some other => .error (.badProperties other)

/-- The id of a Feature. -/
def idOf? (members : List (String × Json)) : Option Json :=
  match Json.member? "id" members with
  | none | some .null => none
  | some id => some id

/-- The record that a Feature object stands for. -/
def ofFeature (value : Json) : Except ShapeError Record :=
  match value with
  | .object members =>
    match typeOf? members with
    | none => .error .noType
    | some "Feature" => do
      let geometry ← geometryOf members
      let attributes ← attributesOf members
      return { id? := idOf? members, geometry := geometry, attributes := attributes }
    | some other => .error (.otherType other)
  | other => .error (.notFeature other)

/-- The records of an array of Features. -/
def ofItems (items : List Json) : Except ShapeError (List Record) := items.mapM ofFeature

/-- The records of a FeatureCollection. An empty object counts as an empty array, because a script
cannot tell the two apart. -/
def ofCollection (members : List (String × Json)) : Except ShapeError (List Record) :=
  match Json.member? "features" members with
  | none | some (.object []) => .ok []
  | some (.array items) => ofItems items
  | some other => .error (.badFeatures other)

/-- The records of a document: a FeatureCollection, an array of Features or a single Feature. -/
def ofDocument (value : Json) : Except ShapeError (List Record) :=
  match value with
  | .array items => ofItems items
  | .object members =>
    if typeOf? members = some "FeatureCollection" then ofCollection members
    else (ofFeature value).map fun record => [record]
  | other => .error (.noFeatures other)

/-! ## To JSON -/

/-- The Feature object of a record. -/
def toFeature (record : Record) : Json :=
  let id :=
    match record.id? with
    | some id => [("id", id)]
    | none => []
  .object ([("geometry", record.geometry.getD .null)] ++ id
    ++ [("properties", .object record.attributes), ("type", .string "Feature")])

/-- The FeatureCollection of records. -/
def collection (records : List Record) : Json :=
  .object [("features", .array (records.map toFeature)), ("type", .string "FeatureCollection")]

end Record

/-! ## Texts -/

/-- Why a text is no document of features. -/
inductive DocumentError where
  /-- it is not JSON -/
  | notJson (cause : Json.ReadError)
  /-- it is JSON of another shape -/
  | shape (cause : ShapeError)

/-- The sentence that describes the error. -/
def DocumentError.message : DocumentError → String
  | .notJson cause => cause.message
  | .shape cause => cause.message

/-- The records of a JSON text. -/
def Record.ofText (text : String) : Except DocumentError (List Record) :=
  match Json.read text with
  | .error e => .error (.notJson e)
  | .ok value =>
    match ofDocument value with
    | .error e => .error (.shape e)
    | .ok records => .ok records

end FeatureTransform
