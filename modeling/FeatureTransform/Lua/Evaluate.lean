import FeatureTransform.Lua.Operation

/-!
# Running Lua

Expressions are evaluated and statements executed by recursion on their syntax. What is not bounded
by the syntax is a parameter or a loop: the way to call a function is handed in, and a loop repeats
until it is done. A statement ends in a signal that says where to go on.
-/

namespace FeatureTransform.Lua

/-- The call of a function that is running. -/
structure Frame where
  /-- the arguments beyond its parameters -/
  varargs : List Value
  /-- the calls that lead to it, innermost first -/
  callers : List Site

/-- Where the function stands when it is on that line. -/
def Frame.at (frame : Frame) (line : Nat) : Spot := { line? := some line, callers := frame.callers }

/-! ## Variables -/

/-- The variable that holds the global variables. -/
def environmentName : String := "_ENV"

/-- The value of the innermost local variable of that name. -/
def readLocal (env : Env) (x : String) : Eval Value :=
  match env.lookup x with
  | some ref => Eval.cell ref
  | none => return .nil

/-- The value of a variable. -/
def readName (call : Call) (frame : Frame) (env : Env) (x : String) (line : Nat) : Eval Value := do
  match env.lookup x with
  | some ref => Eval.cell ref
  | none => index call (frame.at line) (← readLocal env environmentName) (.text x)

/-- The variables in sight together with new ones. -/
def declareAll (env : Env) : List (String × Value) → Eval Env
  | [] => return env
  | (x, v) :: rest => do declareAll ((x, ← Eval.newCell v) :: env) rest

/-- Names with values: values that are missing are `nil`, those too many are dropped. -/
def pairUp : List String → List Value → List (String × Value)
  | [], _ => []
  | x :: xs, [] => (x, .nil) :: pairUp xs []
  | x :: xs, v :: vs => (x, v) :: pairUp xs vs

/-! ## Expressions -/

/-- How a call names what it calls, by the expression that it calls. -/
def calleeName : Expr → CalleeName
  | .name x _ => .plain x
  | .index _ (.string key) _ => .plain (Utf8.lossy key)
  | .index _ (.number (.int _)) _ => .plain "integer index"
  | .index _ _ _ => .plain "?"
  | .paren e => calleeName e
  | _ => .unknown

/-- The call that an expression asks for. -/
def siteOf (line : Nat) (name : CalleeName) : Site :=
  { line? := some line, name := name, isNested := false }

/-- The value of an operator of one operand. -/
def unaryValue (call : Call) (spot : Spot) (op : UnaryOp) (v : Value) : Eval Value :=
  match op with
  | .not => return .bool (!v.isTrue)
  | .minus => arithmetic call spot .unm v v
  | .length => lengthOf call spot v
  | .bnot => bitwiseOperation call spot .bnot v v

/-- The value of an operator of two operands; `a > b` is `b < a`. -/
def binaryValue (call : Call) (spot : Spot) (op : BinaryOp) (a b : Value) : Eval Value :=
  match op with
  | .arith op => arithmetic call spot op a b
  | .bitwise op => bitwiseOperation call spot op a b
  | .concat => concat call spot a b
  | .eq => Value.bool <$> equal call spot a b
  | .ne => (fun e => .bool !e) <$> equal call spot a b
  | .lt => Value.bool <$> lessThan call spot a b
  | .le => Value.bool <$> lessEqual call spot a b
  | .gt => Value.bool <$> lessThan call spot b a
  | .ge => Value.bool <$> lessEqual call spot b a

/-- The number of items and of keyed fields of a constructor; what its last item adds is not known
before it runs. -/
def countFields : List TableField → Nat × Nat
  | [] => (0, 0)
  -- a call or dots in the last place give as many items as they come to
  | [.item e] => if e.isMulti then (0, 0) else (1, 0)
  | .item _ :: rest =>
    let (items, keyed) := countFields rest
    (items + 1, keyed)
  | .keyed _ _ _ :: rest =>
    let (items, keyed) := countFields rest
    (items, keyed + 1)

mutual

/-- The values of an expression: one, unless it is a call or `...`. -/
def evalExpr (call : Call) (frame : Frame) (env : Env) : Expr → Eval (List Value)
  | .nil => return [.nil]
  | .bool b => return [.bool b]
  | .number n => return [.number n]
  | .string s => return [.string s]
  | .vararg => return frame.varargs
  | .function f => return [← Eval.newClosure f env]
  | .name x line => return [← readName call frame env x line]
  | .index object key line => do
    let object ← evalExpr call frame env object
    let key ← evalExpr call frame env key
    return [← index call (frame.at line) (firstOf object) (firstOf key)]
  | .call callee arguments line => do
    let f ← evalExpr call frame env callee
    let arguments ← evalList call frame env arguments
    call (firstOf f) arguments (siteOf line (calleeName callee) :: frame.callers)
  | .method object name arguments lookupLine line => do
    let object ← evalExpr call frame env object
    let f ← index call (frame.at lookupLine) (firstOf object) (.text name)
    let arguments ← evalList call frame env arguments
    call f (firstOf object :: arguments) (siteOf line (.method name) :: frame.callers)
  | .unary op e line => do
    let v ← evalExpr call frame env e
    return [← unaryValue call (frame.at line) op (firstOf v)]
  | .binary op left right line => do
    let a ← evalExpr call frame env left
    let b ← evalExpr call frame env right
    return [← binaryValue call (frame.at line) op (firstOf a) (firstOf b)]
  | .and left right => do
    let a ← evalExpr call frame env left
    if (firstOf a).isTrue then
      let b ← evalExpr call frame env right
      return [firstOf b]
    else return [firstOf a]
  | .or left right => do
    let a ← evalExpr call frame env left
    if (firstOf a).isTrue then return [firstOf a]
    else
      let b ← evalExpr call frame env right
      return [firstOf b]
  | .paren e => do
    let v ← evalExpr call frame env e
    return [firstOf v]
  | .table fields => do
    -- room is made for the fields as they are written, and again for what the last one adds
    let (items, keyed) := countFields fields
    let ref ← Eval.newTable (.sized items keyed)
    let items ← evalFields call frame env ref fields
    Eval.changeTable ref fun t => (t.growPositions items.length).setItems 1 items
    return [.table ref]

/-- The values of a list of expressions: one of each, all of the last. -/
def evalList (call : Call) (frame : Frame) (env : Env) : List Expr → Eval (List Value)
  | [] => return []
  | [e] => evalExpr call frame env e
  | e :: rest => do
    let v ← evalExpr call frame env e
    let vs ← evalList call frame env rest
    return firstOf v :: vs

/-- Sets the keyed fields of a table, in order, and returns its items. -/
def evalFields (call : Call) (frame : Frame) (env : Env) (ref : Nat) :
    List TableField → Eval (List Value)
  | [] => return []
  | [.item e] => evalExpr call frame env e
  | .item e :: rest => do
    let v ← evalExpr call frame env e
    let vs ← evalFields call frame env ref rest
    return firstOf v :: vs
  | .keyed key value line :: rest => do
    let key ← evalExpr call frame env key
    let value ← evalExpr call frame env value
    assignRaw (frame.at line) ref (firstOf key) (firstOf value)
    evalFields call frame env ref rest

end

/-- The values of one expression are all its values. -/
theorem evalList_one {call : Call} {frame : Frame} {env : Env} {store next : Store} {e : Expr}
    {vs : List Value} (he : evalExpr call frame env e store = .done vs next) :
    evalList call frame env [e] store = .done vs next := by
  rw [evalList]
  exact he

/-- The value of an expression. -/
def evalValue (call : Call) (frame : Frame) (env : Env) (e : Expr) : Eval Value :=
  firstOf <$> evalExpr call frame env e

/-! ## Assignments -/

/-- A place that can be assigned to, its parts evaluated. -/
inductive Target where
  /-- a local variable -/
  | cell (ref : Nat)
  /-- a field -/
  | field (object key : Value)

/-- The places that expressions name. -/
def evalTargets (call : Call) (frame : Frame) (env : Env) : List Expr → Eval (List Target)
  | [] => return []
  | .name x _ :: rest => do
    let target ←
      match env.lookup x with
      | some ref => pure (Target.cell ref)
      | none => do pure (Target.field (← readLocal env environmentName) (.text x))
    return target :: (← evalTargets call frame env rest)
  | .index object key _ :: rest => do
    let object ← evalValue call frame env object
    let key ← evalValue call frame env key
    return .field object key :: (← evalTargets call frame env rest)
  | _ :: rest => evalTargets call frame env rest

/-- Sets places to values, the last place first. -/
def assignTargets (call : Call) (spot : Spot) : List Target → List Value → Eval Unit
  | [], _ => return
  | target :: rest, vs => do
    assignTargets call spot rest vs.tail
    match target with
    | .cell ref => Eval.setCell ref (firstOf vs)
    | .field object key => assign call spot object key (firstOf vs)

/-! ## Statements -/

/-- Where to go on behind a statement. -/
inductive Signal where
  /-- behind it -/
  | next
  /-- behind the innermost loop -/
  | «break»
  /-- behind a label -/
  | goto (label : String)
  /-- behind the call of the function, with results -/
  | «return» (values : List Value)
  /-- in another function, whose results are those of this one -/
  | tailCall (f : Value) (arguments : List Value) (site : Site)

/-- How many variables a statement declares. -/
def declaredBy : Stat → Nat
  | .local names _ _ => names.length
  | .localFunction _ _ => 1
  | _ => 0

/-- Whether a statement is that label. -/
def Stat.isLabel (l : String) : Stat → Bool
  | .label other => other == l
  | _ => false

/-- Runs a block and follows the jumps to its own labels. `run` runs it without its first so many
statements; behind a jump the variables in sight are those declared before the label. -/
def withJumps (body : List Stat) (env : Env) (run : Nat → Env → Eval (Signal × Env)) :
    Eval (Signal × Env) :=
  Eval.repeatedly (fun (skipped, current) => do
    let (signal, current) ← run skipped current
    match signal with
    | .goto l =>
      match body.findIdx? (·.isLabel l) with
      | some i =>
        let declared := (body.take i).foldl (fun n stat => n + declaredBy stat) 0
        return .inl (i + 1, current.drop (current.length - (env.length + declared)))
      | none => return .inr (.goto l, current)
    | signal => return .inr (signal, current)) (0, env)

/-- What a loop does after its body has ended in a signal: nothing, or end in a signal itself. -/
def afterTurn : Signal → Option Signal
  | .next => none
  | .break => some .next
  | signal => some signal

/-- Calls the closing metamethod of a value. -/
def closeValue (call : Call) (spot : Spot) (v e : Value) : Eval Unit := do
  if v.isTrue then
    let handler ← metamethod "__close" v
    let _ ← callHandler call spot "close" handler [v, e]

/-- Runs the rest of a block and then closes a value, however the rest ends. -/
def closing (call : Call) (frame : Frame) (line : Nat) (v : Value) (rest : Eval (Signal × Env)) :
    Eval (Signal × Env) := do
  match ← Eval.attempt rest with
  | .ok (.tailCall f arguments site, env) =>
    -- a value that is still to be closed turns a tail call into a call
    let vs ← call f arguments (site :: frame.callers)
    closeValue call (frame.at line) v .nil
    return (.return vs, env)
  | .ok result =>
    closeValue call (frame.at line) v .nil
    return result
  | .error e =>
    closeValue call (frame.at line) v e.toValue
    Eval.raise e

/-- The variable of a declaration that has to be closed, and its line. -/
def closedBy? : Stat → Option (String × Nat)
  | .local names _ line => (names.find? (·.2 == .close)).map fun (x, _) => (x, line)
  | _ => none

/-- Checks that a value can be closed. -/
def checkClosable (spot : Spot) (x : String) (v : Value) : Eval Unit := do
  if v.isTrue then
    match ← metamethod "__close" v with
    | .nil => raiseAt spot s!"variable '{x}' got a non-closable value"
    | _ => return

/-! ### Loops over numbers -/

/-- The turns of a loop over integers: a first value, a step and how many there are. -/
structure IntRange where
  /-- the first value -/
  start : Int64
  /-- what is added after each turn -/
  step : Int64
  /-- the number of turns -/
  turns : Nat

/-- The range of doubles. -/
structure FloatRange where
  /-- the first value -/
  start : Float
  /-- the last value is not beyond this one -/
  limit : Float
  /-- what is added after each turn -/
  step : Float

/-- The range of a loop over integers, by its last bound. -/
def IntRange.upTo (start step limit : Int64) : IntRange :=
  let distance := if 0 < step then limit.toInt - start.toInt else start.toInt - limit.toInt
  { start := start, step := step
    turns := if distance < 0 then 0 else (distance / step.toInt.natAbs).toNat + 1 }

/-- The bound of a loop over integers that a number sets: the nearest integer on the near side; one
beyond all integers sets the last of them, or none on the wrong side. -/
def intLimit? (step : Int64) (limit : Number) : Option Int64 :=
  match limit with
  | .int i => some i
  | .float f =>
    match if 0 < step then floorInt? f else ceilInt? f with
    | some i => some i
    | none =>
      if 0.0 < f then if step < 0 then none else some Int64.maxValue
      else if 0 < step then none
      else some Int64.minValue

/-- Raises the message that a bound of a loop is no number. -/
def raiseBound {α : Type} (spot : Spot) (what : String) (v : Value) : Eval α := do
  raiseAt spot s!"bad 'for' {what} (number expected, got {← describe v})"

/-- The turns of a loop over numbers. -/
def rangeOf (spot : Spot) (start limit step : Value) : Eval (IntRange ⊕ FloatRange) := do
  match start, step with
  | .number (.int first), .number (.int stride) =>
    -- the order of the checks decides which error is told
    if stride = 0 then raiseAt spot "'for' step is zero"
    else
      match limit.toNumber? with
      | none => raiseBound spot "limit" limit
      | some n =>
        match intLimit? stride n with
        | some last => return .inl (.upTo first stride last)
        | none => return .inl { start := first, step := stride, turns := 0 }
  | _, _ =>
    match limit.toNumber?, step.toNumber?, start.toNumber? with
    | none, _, _ => raiseBound spot "limit" limit
    | _, none, _ => raiseBound spot "step" step
    | _, _, none => raiseBound spot "initial value" start
    | some limit, some step, some start =>
      if step.toFloat == 0.0 then raiseAt spot "'for' step is zero"
      else
        return .inr { start := start.toFloat, limit := limit.toFloat, step := step.toFloat }

/-- Runs a body for each value of a range of integers. -/
def runInts (body : Value → Eval Signal) (step : Int64) : (turns : Nat) → Int64 → Eval Signal
  | 0, _ => return .next
  | turns + 1, i => do
    match afterTurn (← body (.int i)) with
    | some signal => return signal
    | none => runInts body step turns (i + step)

/-- Runs a body for each value of a range of doubles. -/
def runFloats (body : Value → Eval Signal) (range : FloatRange) : Eval Signal :=
  Eval.repeatedly (fun (f : Float) => do
    if if 0.0 < range.step then f ≤ range.limit else range.limit ≤ f then
      match afterTurn (← body (.float f)) with
      | some signal => return .inr signal
      | none => return .inl (f + range.step)
    else return .inr .next) range.start

/-- Runs a body for each value of a range. -/
def runRange (body : Value → Eval Signal) : IntRange ⊕ FloatRange → Eval Signal
  | .inl range => runInts body range.step range.turns range.start
  | .inr range => runFloats body range

/-! ### Other loops -/

/-- Runs a body as long as a condition holds. -/
def runWhile (condition : Eval Value) (body : Eval Signal) : Eval Signal :=
  Eval.repeatedly (fun () => do
    if (← condition).isTrue then
      match afterTurn (← body) with
      | some signal => return .inr signal
      | none => return .inl ()
    else return .inr .next) ()

/-- Runs a body until a condition holds, which sees the variables of the body. -/
def runUntil (body : Eval (Signal × Env)) (condition : Env → Eval Value) : Eval Signal :=
  Eval.repeatedly (fun () => do
    let (signal, env) ← body
    match afterTurn signal with
    | some signal => return .inr signal
    | none => if (← condition env).isTrue then return .inr .next else return .inl ()) ()

/-- Runs a body for what an iterator returns, until that is `nil`. -/
def runIterator (next : Value → Eval (List Value)) (body : List Value → Eval Signal)
    (control : Value) : Eval Signal :=
  Eval.repeatedly (fun control => do
    let vs ← next control
    match firstOf vs with
    | .nil => return .inr .next
    | first =>
      match afterTurn (← body vs) with
      | some signal => return .inr signal
      | none => return .inl first) control

/-- The first four of some values. -/
def fourOf (vs : List Value) : Value × Value × Value × Value :=
  (firstOf vs, firstOf (vs.drop 1), firstOf (vs.drop 2), firstOf (vs.drop 3))

mutual

/-- Executes a statement: where to go on, and the variables then in sight. -/
def execStat (call : Call) (frame : Frame) (env : Env) : Stat → Eval (Signal × Env)
  | .call e => do
    let _ ← evalExpr call frame env e
    return (.next, env)
  | .assign targets values line => do
    let places ← evalTargets call frame env targets
    let vs ← evalList call frame env values
    assignTargets call (frame.at line) places vs
    return (.next, env)
  | .local names values line => do
    let vs ← evalList call frame env values
    let pairs := pairUp (names.map Prod.fst) vs
    let env ← declareAll env pairs
    match closedBy? (.local names values line) with
    | some (x, line) =>
      checkClosable (frame.at line) x ((pairs.lookup x).getD .nil)
      return (.next, env)
    | none => return (.next, env)
  | .localFunction x f => do
    let ref ← Eval.newCell .nil
    let env := (x, ref) :: env
    Eval.setCell ref (← Eval.newClosure f env)
    return (.next, env)
  | .block body => do
    let (signal, _) ← withJumps body env fun skipped env => execBlock call frame env skipped body
    return (signal, env)
  | .while condition body => do
    let signal ← runWhile (evalValue call frame env condition)
      (Prod.fst <$> withJumps body env fun skipped env => execBlock call frame env skipped body)
    return (signal, env)
  | .repeat body condition => do
    let signal ← runUntil
      (withJumps body env fun skipped env => execBlock call frame env skipped body)
      (fun env => evalValue call frame env condition)
    return (signal, env)
  | .if condition yes no => do
    let (signal, _) ←
      if (← evalValue call frame env condition).isTrue then
        withJumps yes env fun skipped env => execBlock call frame env skipped yes
      else withJumps no env fun skipped env => execBlock call frame env skipped no
    return (signal, env)
  | .numericFor x start limit step body line => do
    let start ← evalValue call frame env start
    let limit ← evalValue call frame env limit
    let step ←
      match step with
      | some step => evalValue call frame env step
      | none => pure (.int 1)
    let range ← rangeOf (frame.at line) start limit step
    let signal ← runRange (fun v => do
      let inner ← declareAll env [(x, v)]
      Prod.fst <$> withJumps body inner fun skipped env => execBlock call frame env skipped body)
      range
    return (signal, env)
  | .genericFor names values body line => do
    let (f, state, control, closed) := fourOf (← evalList call frame env values)
    checkClosable (frame.at line) "(for state)" closed
    let run : Eval Signal := runIterator
      (fun control => call f [state, control]
        (siteOf line (.plain "for iterator") :: frame.callers))
      (fun vs => do
        let inner ← declareAll env (pairUp names vs)
        Prod.fst <$> withJumps body inner fun skipped env => execBlock call frame env skipped body)
      control
    if closed.isTrue then closing call frame line closed ((·, env) <$> run)
    else return (← run, env)
  | .return values => do
    match values with
    | [.call callee arguments line] =>
      let f ← evalExpr call frame env callee
      let arguments ← evalList call frame env arguments
      return (.tailCall (firstOf f) arguments (siteOf line (calleeName callee)), env)
    | [.method object name arguments lookupLine line] =>
      let object ← evalExpr call frame env object
      let f ← index call (frame.at lookupLine) (firstOf object) (.text name)
      let arguments ← evalList call frame env arguments
      return (.tailCall f (firstOf object :: arguments) (siteOf line (.method name)), env)
    | values => return (.return (← evalList call frame env values), env)
  | .break => return (.break, env)
  | .goto l => return (.goto l, env)
  | .label _ => return (.next, env)

/-- Executes the statements of a block without its first so many. -/
def execBlock (call : Call) (frame : Frame) (env : Env) : (skipped : Nat) → List Stat →
    Eval (Signal × Env)
  | _, [] => return (.next, env)
  | skipped + 1, _ :: rest => execBlock call frame env skipped rest
  | 0, stat :: rest => do
    let (signal, env) ← execStat call frame env stat
    match signal, closedBy? stat with
    | .next, none => execBlock call frame env 0 rest
    | .next, some (x, line) =>
      closing call frame line (← readLocal env x) (execBlock call frame env 0 rest)
    | signal, _ => return (signal, env)

end

/-- Behind its last statement a block is done. -/
theorem execBlock_nil (call : Call) (frame : Frame) (env : Env) (store : Store) :
    execBlock call frame env 0 [] store = .done (.next, env) store := by
  rw [execBlock]
  rfl

/-! ## Functions -/

/-- Runs the body of a function. -/
def enter (call : Call) (closure : Closure) (arguments : List Value) (callers : List Site) :
    Eval Signal := do
  let f := closure.function
  let env ← declareAll closure.env (pairUp f.parameters arguments)
  let frame : Frame :=
    { varargs := if f.isVariadic then arguments.drop f.parameters.length else []
      callers := callers }
  Prod.fst <$> withJumps f.body env fun skipped env => execBlock call frame env skipped f.body

end FeatureTransform.Lua
