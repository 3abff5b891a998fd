import FeatureTransform.Lua.Evaluate
import FeatureTransform.Lua.Library

/-!
# Calls

A call ends when the function returns. A function that returns what another one returns gives way to
it: such a chain of calls is a loop and takes no depth. Every other call inside a call takes one
step of depth, of which there is a limited supply.
-/

namespace FeatureTransform.Lua

/-- A call that is to be made. -/
structure Pending where
  /-- what is called -/
  callee : Value
  /-- the arguments -/
  arguments : List Value
  /-- the calls that lead to it, innermost first -/
  callers : List Site
  /-- whether the innermost caller ends with it -/
  isTail : Bool

namespace Pending

/-- Where the caller stands. -/
def spot (p : Pending) : Spot :=
  { line? := p.callers.head?.bind Site.line?, callers := p.callers.drop 1 }

/-- The calls that lead to a function with statements: it takes the place of a caller that ends with
the call, and has no name there. -/
def frameCallers (p : Pending) : List Site :=
  if p.isTail then
    match p.callers.drop 1 with
    | [] => []
    | site :: rest => { site with name := .unknown } :: rest
  else p.callers

/-- The function that a call comes to. A value that is no function is called by its metamethod, of
which it becomes the first argument. -/
def resolve (p : Pending) : (chain : Nat) → Value → List Value → Eval (Value × List Value)
  | 0, _, _ => raiseAt p.spot "stack overflow"
  | chain + 1, v, arguments => do
    if v.isFunction then return (v, arguments)
    else
      match ← metamethod "__call" v with
      | .nil => raiseType p.spot "call" v
      | handler => p.resolve chain handler (v :: arguments)

end Pending

/-- Makes a call: what it returns, or the call with which it ends. -/
def step (call : Call) (p : Pending) : Eval (Pending ⊕ List Value) := do
  let (f, arguments) ← p.resolve maxChain p.callee p.arguments
  match f with
  | .closure ref =>
    match (← Eval.closure? ref) with
    | none => return .inr []
    | some closure =>
      let callers := p.frameCallers
      match ← enter call closure arguments callers with
      | .return vs => return .inr vs
      | .tailCall callee arguments site =>
        return .inl
          { callee := callee, arguments := arguments, callers := site :: callers, isTail := true }
      -- the end of the function without a `return`
      | _ => return .inr []
  | .builtin b =>
    let inv : Invocation :=
      { builtin := b, arguments := arguments, call := call, callers := p.callers }
    .inr <$> inv.run
  | _ => return .inr []

/-- How many calls that no call expression asks for may wait for each other. -/
def maxNested : Nat := 195

/-- Calls a value with a supply of depth. -/
def callWithin : (depth : Nat) → Call
  | 0, callee, arguments, callers =>
    let p : Pending :=
      { callee := callee, arguments := arguments, callers := callers, isTail := false }
    raiseAt p.spot "stack overflow"
  | depth + 1, callee, arguments, callers =>
    let p : Pending :=
      { callee := callee, arguments := arguments, callers := callers, isTail := false }
    -- calls that no call expression asks for are counted apart, and few of them may wait
    if callers.head?.any Site.isNested && maxNested < callers.countP Site.isNested then
      raiseAt p.spot "C stack overflow"
    else Eval.repeatedly (step (callWithin depth)) p

/-- How many calls may wait for each other. -/
def maxDepth : Nat := 100000

/-- Calls a value. -/
def call : Call := callWithin maxDepth

end FeatureTransform.Lua
