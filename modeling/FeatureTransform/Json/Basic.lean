import FeatureTransform.Decimal.Binary

/-!
# JSON values

A number is an integer of at most 64 bits, signed or not, or a finite double: which of the two it
is belongs to the value. The members of an object have distinct names and stand in increasing order
of them, so that two objects with the same members are equal; `Json.ofMembers` brings any list of
members into that order.
-/

namespace FeatureTransform

namespace Json

/-- An integer that fits 64 bits, signed or unsigned. -/
structure Integer where
  /-- the integer -/
  value : Int
  /-- the bounds of the two formats together -/
  inRange : -0x8000000000000000 ≤ value ∧ value < 0x10000000000000000
deriving DecidableEq

/-- A double that is neither infinite nor NaN. -/
structure Double where
  /-- the double -/
  value : Float
  /-- infinities and NaN have no JSON text -/
  finite : value.isFinite = true
deriving DecidableEq

/-- A JSON number. -/
inductive Number where
  /-- written without point and exponent -/
  | integer (i : Integer)
  /-- written with a point or an exponent -/
  | double (d : Double)
deriving DecidableEq

end Json

/-- A JSON value. -/
inductive Json where
  /-- the absent value -/
  | null
  /-- a truth value -/
  | bool (b : Bool)
  /-- an integer or a double -/
  | number (n : Json.Number)
  /-- a text -/
  | string (s : String)
  /-- values in order -/
  | array (items : List Json)
  /-- named values in increasing order of their distinct names -/
  | object (members : List (String × Json))

namespace Json

/-! ## Numbers -/

/-- The number of a signed 64-bit integer. -/
def Integer.ofInt64 (i : Int64) : Integer :=
  { value := i.toInt
    inRange := by
      have low := i.le_toInt
      have high := i.toInt_lt
      constructor <;> omega }

/-- The value as a signed 64-bit integer, if it is one. -/
def Integer.toInt64? (i : Integer) : Option Int64 :=
  if i.value < 0x8000000000000000 then some (Int64.ofInt i.value) else none

/-- The integer as a number, if it fits. -/
def Number.ofInt? (i : Int) : Option Number :=
  if h : -0x8000000000000000 ≤ i ∧ i < 0x10000000000000000 then some (.integer ⟨i, h⟩) else none

/-- The double as a number, if it is finite. -/
def Number.ofFloat? (f : Float) : Option Number :=
  if h : f.isFinite = true then some (.double ⟨f, h⟩) else none

/-- The double as a JSON value; one that is not finite is `null`. -/
def ofFloat (f : Float) : Json :=
  match Number.ofFloat? f with
  | some n => .number n
  | none => .null

/-- A signed 64-bit integer as a JSON value. -/
def ofInt64 (i : Int64) : Json := .number (.integer (.ofInt64 i))

/-- The double nearest to the number. -/
def Number.toFloat : Number → Float
  | .integer i => Float.nearest i.value
  | .double d => d.value

/-! ## Objects -/

/-- The value of the member called `name`. -/
def member? (name : String) (members : List (String × Json)) : Option Json := members.lookup name

/-- The members with the one called `name` set to `value`. -/
def insertMember (name : String) (value : Json) : List (String × Json) → List (String × Json)
  | [] => [(name, value)]
  | (other, old) :: rest =>
    if name < other then (name, value) :: (other, old) :: rest
    else if name = other then (name, value) :: rest
    else (other, old) :: insertMember name value rest

/-- Members in increasing order of their names; of two with one name the later stays. -/
def sortMembers (members : List (String × Json)) : List (String × Json) :=
  members.foldl (fun sorted (name, value) => insertMember name value sorted) []

/-- The object of the given members; of two with one name the later stays. -/
def ofMembers (members : List (String × Json)) : Json := .object (sortMembers members)

/-- An optional text, `null` when there is none. -/
def ofText? : Option String → Json
  | some s => .string s
  | none => .null

/-- Whether the value is a number. -/
def isNumber : Json → Bool
  | .number _ => true
  | _ => false

/-- What kind of value this is, in the words of messages. -/
def kind : Json → String
  | .null => "null"
  | .bool _ => "a boolean"
  | .number _ => "a number"
  | .string _ => "a string"
  | .array _ => "an array"
  | .object _ => "an object"

end Json

end FeatureTransform
