import FeatureTransform.Declaration.Basic
import FeatureTransform.Json.Basic

/-!
# Declarations as JSON

A tool reads a script's declarations as JSON objects. The members stand in the order of the
declaration: name, description, flag, type, and then what the kind adds.
-/

namespace FeatureTransform

/-- An optional double, `null` when there is none. -/
def Json.ofOptionalFloat : Option Float → Json
  | some f => .ofFloat f
  | none => .null

/-- The members that tell a kind: its type and the constraints that it has. -/
def Kind.members : Kind → List (String × Json)
  | .raster => [("type", .string "raster")]
  | .vector geometry => [("type", .string "vector"), ("geometry", .string geometry.label)]
  | .extent => [("type", .string "extent")]
  | .crs default? => [("type", .string "crs"), ("default", .ofText? default?)]
  | .field parent? => [("type", .string "field"), ("parent", .ofText? parent?)]
  | .string default? => [("type", .string "string"), ("default", .ofText? default?)]
  | .file extension? => [("type", .string "file"), ("extension", .ofText? extension?)]
  | .number default? min? max? =>
    [("type", .string "number"), ("default", .ofOptionalFloat default?),
      ("min", .ofOptionalFloat min?), ("max", .ofOptionalFloat max?)]
  | .choice choices =>
    [("type", .string "enum"), ("choices", .array (choices.map .string))]
  | .boolean default => [("type", .string "boolean"), ("default", .bool default)]
  | .layers type =>
    [("type", .string "multiple_layers"), ("layer_type", .string type.label)]
  | .rasterDestination => [("type", .string "raster_destination")]
  | .vectorDestination => [("type", .string "vector_destination")]
  | .fileDestination extension? =>
    [("type", .string "file_destination"), ("extension", .ofText? extension?)]

/-- The members of a parameter in the order of its declaration. -/
def Parameter.members (p : Parameter) : List (String × Json) :=
  [("name", .string p.name), ("description", .string p.description), ("optional", .bool p.optional)]
    ++ p.kind.members

/-- The members of an output in the order of its declaration. -/
def Output.members (o : Output) : List (String × Json) :=
  [("name", .string o.name), ("description", .string o.description),
    ("kind", .string o.kind.label)]

end FeatureTransform
