import FeatureTransform.Feature.Record
import FeatureTransform.Text.Case
import FeatureTransform.Text.Split

/-!
# Schemas

A schema is a list of fields with distinct names, each of one type. It is inferred from records, or
extended by hand, and what a script returns is fitted to it: each field is there and holds a value
of its type or `null`, and nothing else is there.
-/

namespace FeatureTransform

/-- The type of a field. -/
inductive FieldType where
  /-- texts -/
  | string
  /-- signed 64-bit integers -/
  | integer
  /-- finite doubles -/
  | double
  /-- truth values -/
  | boolean
deriving DecidableEq, Repr

namespace FieldType

/-- The name of the type. -/
def name : FieldType → String
  | .string => "string"
  | .integer => "integer"
  | .double => "double"
  | .boolean => "boolean"

/-- The type that a text names, in any case; some types have several names. -/
def parse? (s : Text) : Option FieldType :=
  match String.ofList (Text.lower (Text.trim s)) with
  | "string" | "text" => some .string
  | "integer" | "int" => some .integer
  | "double" | "number" | "real" => some .double
  | "boolean" | "bool" => some .boolean
  | _ => none

/-- The type of a sample value; `null` has none, and arrays and objects count as texts. -/
def infer? : Json → Option FieldType
  | .null => none
  | .bool _ => some .boolean
  | .number (.integer _) => some .integer
  | .number (.double _) => some .double
  | .string _ | .array _ | .object _ => some .string

/-! ## Coercion -/

/-- The nearest integer of 64 bits: halfway cases go away from zero, and what lies beyond the
bounds goes to the bound. -/
def roundToInt64 (f : Float) : Int64 :=
  let i := (Binary.ofFloat f).round
  Int64.ofInt (max (-0x8000000000000000) (min i 0x7FFFFFFFFFFFFFFF))

/-- A number as an integer of 64 bits. -/
def integerOf : Json.Number → Int64
  -- beyond signed integers the number is taken as a double
  | .integer i => i.toInt64?.getD (roundToInt64 (Float.nearest i.value))
  | .double d => roundToInt64 d.value

/-- The truth value that a text spells. -/
def boolOf? (s : String) : Option Bool :=
  match String.ofList (Text.lower (Text.trim s.toList)) with
  | "true" | "1" | "yes" => some true
  | "false" | "0" | "no" => some false
  | _ => none

/-- The value as one of the type; `null` where it does not convert. -/
def coerce (type : FieldType) (value : Json) : Json :=
  match type, value with
  | _, .null => .null
  | .string, .string s => .string s
  | .string, other => .string other.write
  | .integer, .number n => .ofInt64 (integerOf n)
  | .integer, .string s =>
    match Decimal.readInt? (Text.trim s.toList) with
    | some i => .ofInt64 (Int64.ofInt i)
    | none => .null
  | .integer, .bool b => .ofInt64 (if b then 1 else 0)
  | .double, .number n => .ofFloat n.toFloat
  | .double, .string s =>
    match Decimal.read? (Text.trim s.toList) with
    | some f => .ofFloat f
    | none => .null
  | .boolean, .bool b => .bool b
  | .boolean, .number n => .bool (n.toFloat != 0.0)
  | .boolean, .string s =>
    match boolOf? s with
    | some b => .bool b
    | none => .null
  | _, _ => .null

end FieldType

/-- A named field. -/
structure Field where
  /-- its name -/
  name : String
  /-- what it holds -/
  type : FieldType
deriving DecidableEq, Repr

/-- The field that a text `name:type` describes; the last colon divides. -/
def Field.parse? (spec : String) : Option Field :=
  match Text.splitLast? ':' spec.toList with
  | none => none
  | some (name, type) =>
    match Text.nonEmpty? name, FieldType.parse? type with
    | some name, some type => some { name := String.ofList name, type := type }
    | _, _ => none

/-- A list of fields, in the order in which they came. -/
structure Schema where
  /-- the fields -/
  fields : List Field
deriving DecidableEq, Repr

namespace Schema

/-- The schema without fields. -/
def empty : Schema := ⟨[]⟩

/-- The fields with one more, or with the one of that name changed to the new type. -/
def insertField (field : Field) : List Field → List Field
  | [] => [field]
  | old :: rest =>
    if old.name = field.name then { old with type := field.type } :: rest
    else old :: insertField field rest

/-- The schema with one more field, or with the field of that name changed to the new type. -/
def insert (schema : Schema) (field : Field) : Schema := ⟨insertField field schema.fields⟩

/-! ## Inference -/

/-- The samples seen so far after one more: a field has the type of its first sample that is not
`null`. -/
def addSample (name : String) (value : Json) :
    List (String × Option FieldType) → List (String × Option FieldType)
  | [] => [(name, FieldType.infer? value)]
  | (other, type?) :: rest =>
    if other = name then (other, type?.or (FieldType.infer? value)) :: rest
    else (other, type?) :: addSample name value rest

/-- The schema of the attributes of records, in the order in which their names come up. A field
that is `null` everywhere holds texts. -/
def infer (records : List Record) : Schema :=
  let samples := records.flatMap Record.attributes
  let types := samples.foldl (fun types (name, value) => addSample name value types) []
  ⟨types.map fun (name, type?) => { name := name, type := type?.getD .string }⟩

/-! ## Projection -/

/-- The attributes fitted to the schema: every field is there, coerced or `null`, and nothing
else. -/
def project (schema : Schema) (attributes : List (String × Json)) : List (String × Json) :=
  Json.sortMembers <| schema.fields.map fun field =>
    (field.name,
      match Json.member? field.name attributes with
      | some value => field.type.coerce value
      | none => .null)

end Schema

end FeatureTransform
