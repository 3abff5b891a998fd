import FeatureTransform.Lua.Library.Argument

/-!
# The basic functions

Errors and protected calls, types and conversions, metatables, raw access, iteration, and messages
to the user. What a program tells the user goes into the store, as text; values that are no texts,
numbers or truth values show no more than their type.
-/

namespace FeatureTransform.Lua

namespace Basic

/-! ## Errors -/

/-- Raises a value; a string gets the position of the caller at that level in front. -/
def raiseLevel (inv : Invocation) (level : Int) (v : Value) : Eval (List Value) :=
  match v with
  | .string s =>
    if 0 < level then
      let line? := inv.callers[level.toNat - 1]?.bind Site.line?
      Eval.raiseValue (.string ((positioned line? "").toUTF8 ++ s))
    else Eval.raiseValue v
  | v => Eval.raiseValue v

/-- `error` -/
def error (inv : Invocation) : Eval (List Value) := do
  let level ← inv.optional 2 1 Invocation.integer
  raiseLevel inv level.toInt (inv.argument 1)

/-- `assert` -/
def assert (inv : Invocation) : Eval (List Value) := do
  let condition ← inv.any 1
  if condition.isTrue then return inv.arguments
  else raiseLevel inv 1 ((inv.argument? 2).getD (.text "assertion failed!"))

/-- `pcall`: calls a function; an error is a result. -/
def pcall (inv : Invocation) : Eval (List Value) := do
  match inv.arguments with
  | [] => Eval.raiseValue (.text "not enough arguments to pcall")
  | f :: arguments =>
    match ← Eval.attempt (inv.call f arguments (inv.spot.calling .unknown)) with
    | .ok vs => return .bool true :: vs
    | .error e => return [.bool false, e.toValue]

/-- What a handler makes of an error. A handler that fails handles its own error, so many times at
most. -/
def handle (inv : Invocation) (handler : Value) : (attempts : Nat) → Raised → Eval Value
  | 0, _ => return .text "error in error handling"
  | _, .memory => return Raised.memory.toValue
  | attempts + 1, .value v => do
    match ← Eval.attempt (inv.call handler [v] (inv.spot.calling .unknown)) with
    | .ok vs => return firstOf vs
    | .error e => handle inv handler attempts e

/-- `xpcall`: calls a function; a handler makes a result of an error. -/
def xpcall (inv : Invocation) : Eval (List Value) := do
  match inv.arguments with
  | f :: handler :: arguments =>
    match ← Eval.attempt (inv.call f arguments (inv.spot.calling .unknown)) with
    | .ok vs => return .bool true :: vs
    | .error e => return [.bool false, ← handle inv handler 200 e]
  | _ => Eval.raiseValue (.text "not enough arguments to xpcall")

/-! ## Types and conversions -/

/-- `type` -/
def type (inv : Invocation) : Eval (List Value) := do
  return [.text (← inv.any 1).typeName]

/-- `tostring` -/
def tostring (inv : Invocation) : Eval (List Value) := do
  return [.string (← toText inv.call inv.spot (← inv.any 1))]

/-- The value of a digit of bases up to 36. -/
def digit? (c : Char) : Option Nat :=
  if '0' ≤ c ∧ c ≤ '9' then some (c.toNat - 48)
  else if 'a' ≤ c ∧ c ≤ 'z' then some (c.toNat - 87)
  else if 'A' ≤ c ∧ c ≤ 'Z' then some (c.toNat - 55)
  else none

/-- The number that digits of a base stand for. -/
def readDigits? (base n : Nat) : List Char → Option Nat
  | [] => some n
  | c :: rest =>
    match digit? c with
    | some d => if d < base then readDigits? base (n * base + d) rest else none
    | none => none

/-- The integer that a string spells in a base; it wraps around. -/
def readInteger? (base : Nat) (s : ByteArray) : Option Int64 :=
  let chars := s.data.toList.map fun b => Char.ofNat b.toNat
  let chars := ((chars.dropWhile isSpace).reverse.dropWhile isSpace).reverse
  let (negative, digits) := Decimal.spanSign chars
  if digits.isEmpty then none
  else
    (readDigits? base 0 digits).map fun n =>
      let i := Int64.ofNat (n % 0x10000000000000000)
      if negative then -i else i

/-- `tonumber` -/
def tonumber (inv : Invocation) : Eval (List Value) := do
  match inv.argument 2 with
  | .nil =>
    match (← inv.any 1).toNumber? with
    | some n => return [.number n]
    | none => return [.nil]
  | _ =>
    let base ← inv.integer 2
    match inv.argument 1 with
    | .string s =>
      inv.require (2 ≤ base && base ≤ 36) 2 "base out of range"
      match readInteger? base.toInt.toNat s with
      | some i => return [.int i]
      | none => return [.nil]
    | _ => inv.badType 1 "string"

/-! ## Metatables -/

/-- `getmetatable`: the metatable of a value, or what it shows in place of itself. -/
def getmetatable (inv : Invocation) : Eval (List Value) := do
  match ← inv.any 1 with
  | .failure _ => return [.bool false]
  | v =>
    match ← metatableOf v with
    | none => return [.nil]
    | some ref =>
      match ← Eval.rawGet ref (.text "__metatable") with
      | .nil => return [.table ref]
      | shown => return [shown]

/-- `setmetatable` -/
def setmetatable (inv : Invocation) : Eval (List Value) := do
  let ref ← inv.table 1
  let metatable ←
    match inv.argument? 2 with
    | some .nil => pure none
    | some (.table m) => pure (some m)
    | _ => inv.badType 2 "nil or table"
  match ← metamethod "__metatable" (.table ref) with
  | .nil =>
    Eval.changeTable ref fun t => { t with metatable := metatable }
    return [.table ref]
  | _ => inv.fail "cannot change a protected metatable"

/-! ## Raw access -/

/-- `rawequal` -/
def rawequal (inv : Invocation) : Eval (List Value) := do
  let a ← inv.any 1
  let b ← inv.any 2
  return [.bool (a.rawEqual b)]

/-- `rawget` -/
def rawget (inv : Invocation) : Eval (List Value) := do
  let ref ← inv.table 1
  let key ← inv.any 2
  match Key.of? key with
  | some key => return [← Eval.rawGet ref key]
  | none => return [.nil]

/-- `rawset` -/
def rawset (inv : Invocation) : Eval (List Value) := do
  let ref ← inv.table 1
  let key ← inv.any 2
  let v ← inv.any 3
  assignRaw inv.spot ref key v
  return [.table ref]

/-- `rawlen` -/
def rawlen (inv : Invocation) : Eval (List Value) := do
  match inv.argument 1 with
  | .table ref => return [.nat (← Eval.table ref).length]
  | .string s => return [.nat s.size]
  | _ => inv.badType 1 "table or string"

/-! ## Iteration -/

/-- An entry as two values, or `nil` where there is none. -/
def entryValues : Option (Key × Value) → List Value
  | some (key, v) => [key.toValue, v]
  | none => [.nil]

/-- `next`: the entry behind a key. -/
def next (inv : Invocation) : Eval (List Value) := do
  let t ← Eval.table (← inv.table 1)
  match inv.argument 2 with
  | .nil => return entryValues t.first?
  | key =>
    match (Key.of? key).bind t.after? with
    | some entry? => return entryValues entry?
    | none => raiseAt inv.spot "invalid key to 'next'"

/-- The first three of some values. -/
def threeOf (vs : List Value) : List Value :=
  [firstOf vs, firstOf (vs.drop 1), firstOf (vs.drop 2)]

/-- `pairs` -/
def pairs (inv : Invocation) : Eval (List Value) := do
  let v ← inv.any 1
  match ← metamethod "__pairs" v with
  | .nil => return [.builtin .next, v, .nil]
  | handler => return threeOf (← inv.call handler [v] (inv.spot.calling .unknown))

/-- `ipairs` -/
def ipairs (inv : Invocation) : Eval (List Value) := do
  return [.builtin .ipairsStep, ← inv.any 1, .int 0]

/-- The iterator of `ipairs`: the next position with its item. -/
def ipairsStep (inv : Invocation) : Eval (List Value) := do
  let i := (← inv.integer 2) + 1
  match ← inv.item (inv.argument 1) i with
  | .nil => return [.nil]
  | v => return [.int i, v]

/-! ## Arguments -/

/-- `select`: the arguments from a position on, or how many there are. -/
def select (inv : Invocation) : Eval (List Value) := do
  let rest := inv.arguments.drop 1
  let counts :=
    match inv.argument 1 with
    | .string s => s[0]? == some 35
    | _ => false
  if counts then return [.nat rest.length]
  else
    let i := (← inv.integer 1).toInt
    if 0 < i then return rest.drop (i.toNat - 1)
    else
      let start := rest.length + i
      inv.require (i < 0 && 0 ≤ start) 1 "index out of range"
      return rest.drop start.toNat

end Basic

/-! ## Messages -/

namespace Message

/-- A value as the user sees it. -/
def display : Value → String
  | .nil => "nil"
  | .bool b => if b then "true" else "false"
  | .number (.int i) => Decimal.intString i.toInt
  | .number (.float f) => Decimal.plainText f
  | .string s => Utf8.lossy s
  | v => s!"<{v.hostTypeName}>"

/-- `print`: all arguments, divided by tabs. -/
def print (inv : Invocation) : Eval (List Value) := do
  Eval.tell .info ("\t".intercalate (inv.arguments.map display))
  return []

/-- The functions of `feedback`: the first argument. -/
def push (kind : FeedbackKind) (inv : Invocation) : Eval (List Value) := do
  Eval.tell kind (display (inv.argument 1))
  return []

end Message

end FeatureTransform.Lua
