import FeatureTransform.Feature.Projection
import FeatureTransform.Feature.Schema

/-!
# Exchange with scripts

A record leaves for a script as the JSON text of a Feature in the target reference system. What
comes back is JSON text again: features in any of the document forms, or nothing in any of several
spellings. Each record that comes back is fitted to the schema.
-/

namespace FeatureTransform

/-- Why a record does not come through. -/
inductive RecordError where
  /-- its geometry cannot be carried to the target system -/
  | reprojection (cause : NoProjection)
  /-- the script fails -/
  | script (message : String)
  /-- the result is not JSON -/
  | malformedResult (cause : Json.ReadError)
  /-- the result is JSON but holds no features -/
  | unexpectedShape (cause : ShapeError)

/-- The sentence that describes the error. -/
def RecordError.message : RecordError → String
  | .reprojection cause => cause.message
  | .script message => s!"script error: {message}"
  | .malformedResult cause => s!"malformed result: {cause.message}"
  | .unexpectedShape cause => s!"unexpected result shape: {cause.message}"

/-- The terms of an exchange. -/
structure Exchange where
  /-- the system of the records -/
  source : ReferenceSystem
  /-- the system that scripts see -/
  target : ReferenceSystem
  /-- the fields of the records that come back -/
  schema : Schema

namespace Exchange

/-- The text that a record leaves as. -/
def exportText (exchange : Exchange) (record : Record) : Except RecordError String :=
  match record.geometry with
  | none => .ok record.toFeature.write
  | some geometry =>
    match reproject exchange.source exchange.target geometry with
    | .ok geometry => .ok { record with geometry := some geometry }.toFeature.write
    | .error e => .error (.reprojection e)

/-- Whether a value stands for no records at all. -/
def isNothing : Json → Bool
  | .null | .array [] | .object [] => true
  | _ => false

/-- The records that a text brings back. White space, `null` and empty containers bring none. -/
def decode (exchange : Exchange) (text : String) : Except RecordError (List Record) :=
  match Text.trim text.toList with
  | [] => .ok []
  | trimmed =>
    match Json.readText trimmed with
    | .error e => .error (.malformedResult e)
    | .ok value =>
      if isNothing value then .ok []
      else
        match Record.ofDocument value with
        | .error e => .error (.unexpectedShape e)
        | .ok records =>
          .ok (records.map fun record =>
            { record with attributes := exchange.schema.project record.attributes })

end Exchange

end FeatureTransform
