import FeatureTransform.Lua.Library.Names
import FeatureTransform.Lua.Operation

/-!
# Arguments of library functions

A library function takes its arguments by position and complains about one that does not fit by
its own name, which is the name that the call gives it. A number stands for a string that spells
it, and a string for the number that it spells.
-/

namespace FeatureTransform.Lua

/-- A library function that is running. -/
structure Invocation where
  /-- the function -/
  builtin : Builtin
  /-- its arguments -/
  arguments : List Value
  /-- the way to call other functions -/
  call : Call
  /-- the calls that lead to it, innermost first -/
  callers : List Site

namespace Invocation

variable {α : Type}

/-- Where the function stands: it has no lines. -/
def spot (inv : Invocation) : Spot := { line? := none, callers := inv.callers }

/-- The arguments as counted from one. -/
def argument? (inv : Invocation) (n : Nat) : Option Value := inv.arguments[n - 1]?

/-- An argument; one that is not given is `nil`. -/
def argument (inv : Invocation) (n : Nat) : Value := (inv.argument? n).getD .nil

/-- Raises a message. -/
def fail (inv : Invocation) (message : String) : Eval α := raiseFrom inv.spot message

/-- Raises the message that an argument is wrong. The object of a method is not counted. -/
def badArgument (inv : Invocation) (n : Nat) (message : String) : Eval α :=
  match inv.callers.head?.map Site.name with
  | some (.plain name) => inv.fail s!"bad argument #{n} to '{name}' ({message})"
  | some (.method name) =>
    if n = 1 then inv.fail s!"calling '{name}' on bad self ({message})"
    else inv.fail s!"bad argument #{n - 1} to '{name}' ({message})"
  | _ => inv.fail s!"bad argument #{n} to '{inv.builtin.fullName}' ({message})"

/-- Raises the message that an argument is of another type than expected. -/
def badType (inv : Invocation) (n : Nat) (expected : String) : Eval α := do
  let got ←
    match inv.argument? n with
    | none => pure "no value"
    | some .null => pure "light userdata"
    | some v => describe v
  inv.badArgument n s!"{expected} expected, got {got}"

/-- An argument that has to be given. -/
def any (inv : Invocation) (n : Nat) : Eval Value :=
  match inv.argument? n with
  | some v => return v
  | none => inv.badArgument n "value expected"

/-- An argument that has to be a number. -/
def number (inv : Invocation) (n : Nat) : Eval Number :=
  match (inv.argument n).toNumber? with
  | some x => return x
  | none => inv.badType n "number"

/-- An argument that has to be a number, as a double. -/
def float (inv : Invocation) (n : Nat) : Eval Float := Number.toFloat <$> inv.number n

/-- An argument that has to be an integer. -/
def integer (inv : Invocation) (n : Nat) : Eval Int64 := do
  match (← inv.number n).toInt? with
  | some i => return i
  | none => inv.badArgument n "number has no integer representation"

/-- An argument that is `other` if it is not given. -/
def optional (inv : Invocation) (n : Nat) (other : α) (read : Invocation → Nat → Eval α) : Eval α :=
  match inv.argument n with
  | .nil => return other
  | _ => read inv n

/-- An argument that has to be a string. -/
def string (inv : Invocation) (n : Nat) : Eval ByteArray :=
  match (inv.argument n).toBytes? with
  | some s => return s
  | none => inv.badType n "string"

/-- An argument that has to be a table. -/
def table (inv : Invocation) (n : Nat) : Eval Nat :=
  match inv.argument n with
  | .table ref => return ref
  | _ => inv.badType n "table"

/-- Goes on only if an argument satisfies a condition. -/
def require (inv : Invocation) (condition : Bool) (n : Nat) (message : String) : Eval Unit :=
  if condition then return else inv.badArgument n message

/-! ## Tables as sequences -/

/-- The item of a value at a position. -/
def item (inv : Invocation) (v : Value) (i : Int64) : Eval Value :=
  index inv.call inv.spot v (.int i)

/-- Sets the item of a value at a position. -/
def setItem (inv : Invocation) (v : Value) (i : Int64) (x : Value) : Eval Unit :=
  assign inv.call inv.spot v (.int i) x

/-- The length of a value, which a metamethod may give. -/
def length (inv : Invocation) (v : Value) : Eval Int64 := do
  match (← lengthOf inv.call inv.spot v) with
  | .number n =>
    match n.toInt? with
    | some i => return i
    | none => inv.fail "object length is not an integer"
  | _ => inv.fail "object length is not an integer"

end Invocation

end FeatureTransform.Lua
