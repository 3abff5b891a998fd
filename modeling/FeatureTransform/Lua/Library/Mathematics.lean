import FeatureTransform.Lua.Library.Argument

/-!
# Functions on numbers

Rounding gives an integer where 64 bits hold it, else a double.
-/

namespace FeatureTransform.Lua

namespace Mathematics

/-- A function on doubles. -/
def onFloat (f : Float → Float) (inv : Invocation) : Eval (List Value) := do
  return [.float (f (← inv.float 1))]

/-- A double as an integer if it is equal to one. -/
def settled (f : Float) : Value :=
  match intOfFloat? f with
  | some i => .int i
  | none => .float f

/-- `math.floor` and `math.ceil`: an integer is its own. -/
def rounded (round : Float → Float) (inv : Invocation) : Eval (List Value) := do
  match inv.argument 1 with
  | .number (.int i) => return [.int i]
  | _ => return [settled (round (← inv.float 1))]

/-- `math.abs`; the least integer is its own. -/
def abs (inv : Invocation) : Eval (List Value) := do
  match inv.argument 1 with
  | .number (.int i) => return [.int (if i < 0 then -i else i)]
  | _ => return [.float (← inv.float 1).abs]

/-- `math.atan` -/
def atan (inv : Invocation) : Eval (List Value) := do
  let y ← inv.float 1
  let x ← inv.optional 2 1.0 Invocation.float
  return [.float (Float.atan2 y x)]

/-- `math.log` -/
def log (inv : Invocation) : Eval (List Value) := do
  let x ← inv.float 1
  match inv.argument 2 with
  | .nil => return [.float x.log]
  | _ =>
    let base ← inv.float 2
    return [.float (
      if base == 2.0 then x.log2
      else if base == 10.0 then x.log10
      else x.log / base.log)]

/-- The half circle in radians. -/
def pi : Float := 3.141592653589793

/-- `math.fmod`: the remainder with the sign of the dividend. -/
def fmod (inv : Invocation) : Eval (List Value) := do
  match inv.argument 1, inv.argument 2 with
  | .number (.int a), .number (.int b) =>
    inv.require (b != 0) 2 "zero"
    return [.int (Int64.ofInt (Int.tmod a.toInt b.toInt))]
  | _, _ =>
    let a ← inv.float 1
    let b ← inv.float 2
    let r := floatMod a.abs b.abs
    return [.float (if a < 0.0 then -r else r)]

/-- `math.modf`: the part before the point, and the rest. -/
def modf (inv : Invocation) : Eval (List Value) := do
  match inv.argument 1 with
  | .number (.int i) => return [.int i, .float 0.0]
  | _ =>
    let x ← inv.float 1
    let whole := if x < 0.0 then x.ceil else x.floor
    return [.float whole, .float (if x == whole then 0.0 else x - whole)]

/-- The argument from position `n` on that no other has to give way to. -/
def extreme (inv : Invocation) (better : Value → Value → Eval Bool) (n : Nat) (best : Value) :
    List Value → Eval Value
  | [] => return best
  | v :: rest => do
    let _ ← inv.number n
    if ← better v best then extreme inv better (n + 1) v rest
    else extreme inv better (n + 1) best rest

/-- `math.max` -/
def max (inv : Invocation) : Eval (List Value) := do
  let _ ← inv.number 1
  return [← extreme inv (fun v best => lessThan inv.call inv.spot best v) 2 (inv.argument 1)
    (inv.arguments.drop 1)]

/-- `math.min` -/
def min (inv : Invocation) : Eval (List Value) := do
  let _ ← inv.number 1
  return [← extreme inv (fun v best => lessThan inv.call inv.spot v best) 2 (inv.argument 1)
    (inv.arguments.drop 1)]

/-- `math.tointeger` -/
def tointeger (inv : Invocation) : Eval (List Value) := do
  match (inv.argument 1).toNumber?.bind Number.toInt? with
  | some i => return [.int i]
  | none =>
    let _ ← inv.any 1
    return [.nil]

/-- `math.type` -/
def type (inv : Invocation) : Eval (List Value) := do
  match ← inv.any 1 with
  | .number (.int _) => return [.text "integer"]
  | .number (.float _) => return [.text "float"]
  | _ => return [.nil]

/-- `math.ult`: whether an integer is less than another, both without sign. -/
def ult (inv : Invocation) : Eval (List Value) := do
  let a ← inv.integer 1
  let b ← inv.integer 2
  return [.bool (a.toUInt64 < b.toUInt64)]

end Mathematics

end FeatureTransform.Lua
