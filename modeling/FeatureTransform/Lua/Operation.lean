import FeatureTransform.Lua.Store

/-!
# Operations on values

Operations that a table may take over by its metatable: look-up, assignment, arithmetic, comparison,
concatenation, length, conversion to a string. They need to call functions, so each takes the way
to call one as a parameter.

A message of the interpreter begins with the line of the function that is running, one of a library
function with the line of its caller; a function of the libraries has no lines.
-/

namespace FeatureTransform.Lua

/-! ## Where a program stands -/

/-- How a call names what it calls. -/
inductive CalleeName where
  /-- not at all -/
  | unknown
  /-- by a variable or field -/
  | plain (name : String)
  /-- as a method -/
  | method (name : String)
deriving DecidableEq, Repr

/-- A call that has not come back yet. -/
structure Site where
  /-- the line of the caller; a function of the libraries has none -/
  line? : Option Nat
  /-- how the caller names the callee -/
  name : CalleeName
  /-- whether no call expression asks for it, but an operation or a library function -/
  isNested : Bool

/-- Where a running function stands. -/
structure Spot where
  /-- its line; a function of the libraries has none -/
  line? : Option Nat
  /-- the calls that lead to it, innermost first -/
  callers : List Site

/-- The way to call a value. -/
abbrev Call := Value → List Value → List Site → Eval (List Value)

/-- A message with a position in front. -/
def positioned (line? : Option Nat) (message : String) : String :=
  match line? with
  | some line => s!"script:{line}: {message}"
  | none => message

namespace Spot

/-- The calls that lead to a function called from here. -/
def calling (spot : Spot) (name : CalleeName) : List Site :=
  { line? := spot.line?, name := name, isNested := true } :: spot.callers

/-- The line of the function that called the running one. -/
def callerLine? (spot : Spot) : Option Nat := spot.callers.head?.bind Site.line?

end Spot

/-- Raises a message of the interpreter. -/
def raiseAt {α : Type} (spot : Spot) (message : String) : Eval α :=
  Eval.raiseValue (.text (positioned spot.line? message))

/-- Raises a message of a library function. -/
def raiseFrom {α : Type} (spot : Spot) (message : String) : Eval α :=
  Eval.raiseValue (.text (positioned spot.callerLine? message))

/-! ## Metatables -/

/-- The metatable of a value. -/
def metatableOf (v : Value) : Eval (Option Nat) :=
  match v with
  | .table ref => return (← Eval.table ref).metatable
  | .string _ => return some stringMetaRef
  | _ => return none

/-- What the metatable of a value says about an event. -/
def metamethod (event : String) (v : Value) : Eval Value := do
  match ← metatableOf v with
  | some ref => Eval.rawGet ref (.text event)
  | none => return .nil

/-- The name of a value's type in messages, which its metatable may give. -/
def describe (v : Value) : Eval String := do
  match v with
  | .table _ =>
    match ← metamethod "__name" v with
    | .string name => return Utf8.lossy name
    | _ => return v.typeName
  | _ => return v.typeName

/-- The first of some values. -/
def firstOf : List Value → Value
  | [] => .nil
  | v :: _ => v

/-- Calls a metamethod; what counts is the first value that it returns. -/
def callHandler (call : Call) (spot : Spot) (event : String) (handler : Value)
    (arguments : List Value) : Eval Value :=
  firstOf <$> call handler arguments (spot.calling (.plain event))

/-- Raises the message that an operation is not for a value of this type. -/
def raiseType {α : Type} (spot : Spot) (operation : String) (v : Value) : Eval α := do
  raiseAt spot s!"attempt to {operation} a {← describe v} value"

/-! ## Look-up and assignment -/

/-- How many metatables a look-up may pass through. -/
def maxChain : Nat := 2000

/-- Looks a key up along a chain of at most so many metatables. -/
def lookUp (call : Call) (spot : Spot) (key : Value) : (chain : Nat) → Value → Eval Value
  | 0, _ => raiseAt spot "'__index' chain too long; possibly a loop"
  | chain + 1, v => do
    let found ←
      match v, Key.of? key with
      | .table ref, some k => Eval.rawGet ref k
      | _, _ => pure .nil
    match found with
    | .nil =>
      match ← metamethod "__index" v with
      | .nil =>
        match v with
        -- only a table may have nothing under a key
        | .table _ => return .nil
        | _ => raiseType spot "index" v
      | handler =>
        if handler.isFunction then callHandler call spot "index" handler [v, key]
        else lookUp call spot key chain handler
    | found => return found

/-- The value of a key in a value. -/
def index (call : Call) (spot : Spot) (v key : Value) : Eval Value :=
  lookUp call spot key maxChain v

/-- Sets the value of a key in a table itself. -/
def assignRaw (spot : Spot) (ref : Nat) (key v : Value) : Eval Unit :=
  match Key.of? key with
  | some k => Eval.rawSet ref k v
  | none =>
    match key with
    | .nil => raiseAt spot "table index is nil"
    | _ => raiseAt spot "table index is NaN"

/-- Sets a key along a chain of at most so many metatables. -/
def assignAlong (call : Call) (spot : Spot) (key v : Value) : (chain : Nat) → Value → Eval Unit
  | 0, _ => raiseAt spot "'__newindex' chain too long; possibly a loop"
  | chain + 1, target => do
    let found ←
      match target, Key.of? key with
      | .table ref, some k => Eval.rawGet ref k
      | _, _ => pure .nil
    match target, found with
    | .table ref, .nil =>
      match ← metamethod "__newindex" target with
      | .nil => assignRaw spot ref key v
      | handler =>
        if handler.isFunction then
          let _ ← call handler [target, key, v] (spot.calling (.plain "newindex"))
        else assignAlong call spot key v chain handler
    -- a key that is there is set, whatever the metatable says
    | .table ref, _ => assignRaw spot ref key v
    | _, _ =>
      match ← metamethod "__newindex" target with
      | .nil => raiseType spot "index" target
      | handler =>
        if handler.isFunction then
          let _ ← call handler [target, key, v] (spot.calling (.plain "newindex"))
        else assignAlong call spot key v chain handler

/-- Sets the value of a key in a value. -/
def assign (call : Call) (spot : Spot) (target key v : Value) : Eval Unit :=
  assignAlong call spot key v maxChain target

/-! ## Arithmetic -/

/-- The name of an arithmetic operator. -/
def Arith.name : Arith → String
  | .add => "add"
  | .sub => "sub"
  | .mul => "mul"
  | .div => "div"
  | .mod => "mod"
  | .pow => "pow"
  | .idiv => "idiv"
  | .unm => "unm"

/-- The name of a bitwise operator. -/
def Bitwise.name : Bitwise → String
  | .band => "band"
  | .bor => "bor"
  | .bxor => "bxor"
  | .shl => "shl"
  | .shr => "shr"
  | .bnot => "bnot"

/-- What takes an operation over. -/
inductive Taker where
  /-- nothing -/
  | none
  /-- strings, which try to be numbers -/
  | strings
  /-- a function -/
  | handler (v : Value)

/-- What a value says about an arithmetic event. -/
def takerOf (event : String) (v : Value) : Eval Taker := do
  match v with
  | .string _ => return .strings
  | v =>
    match ← metamethod event v with
    | .nil => return .none
    | handler => return .handler handler

/-- An operation on numbers. -/
def arithNumbers (spot : Spot) (op : Arith) (a b : Number) : Eval Value :=
  match arith op a b with
  | .ok n => return .number n
  | .error fault => raiseAt spot fault.message

/-- Arithmetic of which one operand at least is a string. If it is no numeral, the second operand
may still take the operation over. -/
def arithStrings (call : Call) (spot : Spot) (op : Arith) (a b : Value) : Eval Value := do
  match a.toNumber?, b.toNumber? with
  | some x, some y => arithNumbers { spot with line? := none } op x y
  | _, _ =>
    let fault : Eval Value :=
      raiseAt spot s!"attempt to {op.name} a '{a.typeName}' with a '{b.typeName}'"
    match b with
    | .string _ => fault
    | b =>
      match ← metamethod ("__" ++ op.name) b with
      | .nil => fault
      | handler => callHandler call spot op.name handler [a, b]

/-- The operand that is to blame: the first that is no number. -/
def blamed (a b : Value) : Value :=
  match a with
  | .number _ => b
  | a => a

/-- An arithmetic operation. -/
def arithmetic (call : Call) (spot : Spot) (op : Arith) (a b : Value) : Eval Value := do
  match a, b with
  | .number x, .number y => arithNumbers spot op x y
  | a, b =>
    let event := "__" ++ op.name
    let taker ←
      match ← takerOf event a with
      | .none => takerOf event b
      | taker => pure taker
    match taker with
    | .handler handler => callHandler call spot op.name handler [a, b]
    | .strings => arithStrings call spot op a b
    | .none => raiseType spot "perform arithmetic on" (blamed a b)

/-- A bitwise operation. -/
def bitwiseOperation (call : Call) (spot : Spot) (op : Bitwise) (a b : Value) : Eval Value := do
  match a, b with
  | .number x, .number y =>
    match x.toInt?, y.toInt? with
    | some i, some j => return .int (bitwise op i j)
    | _, _ => raiseAt spot "number has no integer representation"
  | a, b =>
    let event := "__" ++ op.name
    let handler ←
      match ← metamethod event a with
      | .nil => metamethod event b
      | handler => pure handler
    match handler with
    | .nil => raiseType spot "perform bitwise operation on" (blamed a b)
    | handler => callHandler call spot op.name handler [a, b]

/-! ## Comparison -/

/-- Whether the first bytes come before the second. -/
def bytesLess : List UInt8 → List UInt8 → Bool
  | _, [] => false
  | [], _ :: _ => true
  | a :: as, b :: bs => a < b || (a == b && bytesLess as bs)

/-- Raises the message that two values cannot be ordered. -/
def raiseOrder {α : Type} (spot : Spot) (a b : Value) : Eval α := do
  let s ← describe a
  let t ← describe b
  if s = t then raiseAt spot s!"attempt to compare two {s} values"
  else raiseAt spot s!"attempt to compare {s} with {t}"

/-- Asks two values how they are ordered. -/
def askOrder (call : Call) (spot : Spot) (event : String) (a b : Value) : Eval Bool := do
  let handler ←
    match ← metamethod ("__" ++ event) a with
    | .nil => metamethod ("__" ++ event) b
    | handler => pure handler
  match handler with
  | .nil => raiseOrder spot a b
  | handler => return (← callHandler call spot event handler [a, b]).isTrue

/-- Whether the first value is less than the second. -/
def lessThan (call : Call) (spot : Spot) (a b : Value) : Eval Bool :=
  match a, b with
  | .number x, .number y => return x.less y
  | .string s, .string t => return bytesLess s.data.toList t.data.toList
  | a, b => askOrder call spot "lt" a b

/-- Whether the first value is at most the second. -/
def lessEqual (call : Call) (spot : Spot) (a b : Value) : Eval Bool :=
  match a, b with
  | .number x, .number y => return x.lessEq y
  | .string s, .string t => return !bytesLess t.data.toList s.data.toList
  | a, b => askOrder call spot "le" a b

/-- Whether two values are equal; two tables may be asked. -/
def equal (call : Call) (spot : Spot) (a b : Value) : Eval Bool := do
  if a.rawEqual b then return true
  else
    match a, b with
    | .table _, .table _ =>
      let handler ←
        match ← metamethod "__eq" a with
        | .nil => metamethod "__eq" b
        | handler => pure handler
      match handler with
      | .nil => return false
      | handler => return (← callHandler call spot "eq" handler [a, b]).isTrue
    | _, _ => return false

/-! ## Strings and lengths -/

/-- Two values one after the other, as a string. -/
def concat (call : Call) (spot : Spot) (a b : Value) : Eval Value := do
  match a.toBytes?, b.toBytes? with
  | some s, some t =>
    Eval.reserve (s.size + t.size)
    return .string (s ++ t)
  | first, _ =>
    let handler ←
      match ← metamethod "__concat" a with
      | .nil => metamethod "__concat" b
      | handler => pure handler
    match handler with
    | .nil => raiseType spot "concatenate" (if first.isSome then b else a)
    | handler => callHandler call spot "concat" handler [a, b]

/-- The length of a value. -/
def lengthOf (call : Call) (spot : Spot) (v : Value) : Eval Value := do
  match v with
  | .string s => return .nat s.size
  | v =>
    match ← metamethod "__len" v with
    | .nil =>
      match v with
      | .table ref => return .nat (← Eval.table ref).length
      | v => raiseType spot "get length of" v
    | handler => callHandler call spot "len" handler [v]

/-- A number that stands for a place in memory. -/
def addressText (kind ref : Nat) : String :=
  let digits := (Nat.toDigits 16 (0x55d000000000 + kind * 0x10000000 + ref * 64)).map Char.toLower
  "0x" ++ String.ofList digits

/-- The text of a value that has no metamethod for it. -/
def plainString (v : Value) : Eval ByteArray := do
  match v with
  | .nil => return "nil".toUTF8
  | .bool b => return (if b then "true" else "false").toUTF8
  | .number n => return n.text.toUTF8
  | .string s => return s
  | .table ref => return s!"{← describe v}: {addressText 0 ref}".toUTF8
  | .closure ref => return s!"function: {addressText 1 ref}".toUTF8
  | .builtin b => return s!"function: {addressText 2 (hash b).toNat}".toUTF8
  | .null => return "userdata: (nil)".toUTF8
  | .failure ref => return (← Eval.failureMessage ref).toUTF8

/-- The text of a value. -/
def toText (call : Call) (spot : Spot) (v : Value) : Eval ByteArray := do
  match v with
  | .table _ =>
    match ← metamethod "__tostring" v with
    | .nil => plainString v
    | handler =>
      match ← callHandler call spot "tostring" handler [v] with
      | .string s => return s
      | .number n => return n.text.toUTF8
      | _ => raiseFrom spot "'__tostring' must return a string"
  | v => plainString v

end FeatureTransform.Lua
