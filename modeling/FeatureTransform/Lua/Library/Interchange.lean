import FeatureTransform.Json.Write
import FeatureTransform.Lua.Library.Argument

/-!
# JSON in programs

A table has the form of an array if its length is the number of its entries and it is not empty, or
if it is empty and marked; every other table has the form of an object, of the entries whose keys
are strings or integers. What is read from an array is marked, and a `null` in it stays there as a
value of its own; a `null` member of an object is no member of the table.
-/

namespace FeatureTransform.Lua

/-- The bytes of a string as a text. -/
def utf8Text (target : HostType) (s : ByteArray) : Except HostError String :=
  (Utf8.read s).mapError (.notUtf8 target)

namespace Interchange

/-- The name of the field of a metatable that marks arrays. -/
def markerName : String := "__jsontype"

/-! ## From values -/

/-- Why a value has no JSON form. -/
inductive Obstacle where
  /-- an error of the host -/
  | host (e : HostError)
  /-- a table contains itself -/
  | endless

/-- What a metatable says that its tables are, as a text. -/
def markerText (marker : Value) : Except HostError (Option String) :=
  match marker with
  | .nil => .ok none
  | v =>
    match v.toBytes? with
    | some s => some <$> utf8Text .string s
    | none => .error (.notText v.hostTypeName)

/-- Whether a table is marked as an array. -/
def isMarked (store : Store) (t : Table) : Except HostError Bool :=
  match t.metatable.bind (store.tables[·]?) with
  | none => .ok false
  | some metatable => do return (← markerText (metatable.getText markerName)) == some "array"

/-- Whether a table has the form of an array. -/
def isArray (store : Store) (t : Table) : Except HostError Bool :=
  if t.length = t.size then if t.length = 0 then isMarked store t else .ok true
  else .ok false

/-- The name that a key gives to a member; other keys give none. -/
def memberName? : Key → Except HostError (Option String)
  | .string s => some <$> utf8Text .str s
  | .int i => .ok (some (Decimal.intString i.toInt))
  | _ => .ok none

/-- The member of an entry, if its key gives it a name. -/
def memberOf? (encode : Value → Except Obstacle Json) (entry : Key × Value) :
    Except Obstacle (Option (String × Json)) := do
  match ← (memberName? entry.1).mapError .host with
  | some name => return some (name, ← encode entry.2)
  | none => return none

/-- The JSON form of a value. A path through more tables than there are goes through one of them
twice. -/
def encodeWithin (store : Store) : (fuel : Nat) → Value → Except Obstacle Json
  | 0, _ => .error .endless
  | fuel + 1, v =>
    match v with
    | .nil | .null | .failure _ => .ok .null
    | .bool b => .ok (.bool b)
    | .number (.int i) => .ok (.ofInt64 i)
    | .number (.float f) => .ok (.ofFloat f)
    | .string s => .string <$> (utf8Text .str s).mapError .host
    | .closure _ | .builtin _ => .error (.host (.notEncodable v.hostTypeName))
    | .table ref => do
      let t := (store.tables[ref]?).getD .empty
      if ← (isArray store t).mapError .host then
        -- positions without a value become `null`, and keys that are no positions are lost
        let items := (List.range t.length).map fun n => t.getNat (n + 1)
        return .array (← items.mapM (encodeWithin store fuel))
      else
        let members ← t.toList.mapM (memberOf? (encodeWithin store fuel))
        return .ofMembers (members.filterMap id)

/-- The JSON form of a value. -/
def encode (store : Store) (v : Value) : Except Obstacle Json :=
  encodeWithin store (store.tables.size + 2) v

/-! ## To values -/

/-- The value of a number: an integer where 64 bits hold it. -/
def ofNumber (n : Json.Number) : Value :=
  match n with
  | .integer i =>
    match i.toInt64? with
    | some i => .int i
    | none => .float n.toFloat
  | .double d => .float d.value

mutual

/-- The value of a JSON value; arrays and objects become new tables. -/
def decode : Json → Eval Value
  | .null => return .nil
  | .bool b => return .bool b
  | .number n => return ofNumber n
  | .string s => return .text s
  | .array items => do
    let t ← decodeItems 1 .empty items
    return .table (← Eval.newTable { t with metatable := some arrayMetaRef })
  | .object members => do
    return .table (← Eval.newTable (← decodeMembers .empty members))

/-- A table with further items from a position on. -/
def decodeItems (n : Nat) (t : Table) : List Json → Eval Table
  | [] => return t
  -- `nil` would leave a gap in the table
  | .null :: rest => decodeItems (n + 1) (t.set (.nat n) .null) rest
  | item :: rest => do
    let v ← decode item
    decodeItems (n + 1) (t.set (.nat n) v) rest

/-- A table with further members. -/
def decodeMembers (t : Table) : List (String × Json) → Eval Table
  | [] => return t
  | (name, member) :: rest => do
    let v ← decode member
    decodeMembers (t.setText name v) rest

end

/-! ## Functions -/

/-- `json.encode` -/
def encodeArgument (inv : Invocation) : Eval (List Value) := do
  match ← Eval.read fun store => encode store (inv.argument 1) with
  | .ok json => return [.text json.write]
  | .error (.host e) => Eval.raiseHost e
  | .error .endless => fun _ => .endless

/-- The text that an argument is to the host. -/
def hostText (v : Value) : Except HostError String :=
  match v.toBytes? with
  | some s => utf8Text .string s
  | none => .error (.notText v.hostTypeName)

/-- `json.decode` -/
def decodeArgument (inv : Invocation) : Eval (List Value) := do
  match hostText (inv.argument 1) with
  | .error e => Eval.raiseHost (.badArgument 1 e)
  | .ok text =>
    match Json.read text with
    | .error e => Eval.raiseHost (.notJson e)
    | .ok json => return [← decode json]

end Interchange

end FeatureTransform.Lua
