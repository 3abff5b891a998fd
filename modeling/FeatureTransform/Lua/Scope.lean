import FeatureTransform.Lua.Syntax

/-!
# Rules of scope

What the grammar cannot say: a `break` stands in a loop, `...` in a function that takes further
arguments, a constant is not assigned to, and a `goto` finds its label in a block around it without
entering the scope of a local variable.
-/

namespace FeatureTransform.Lua

/-- What surrounds a piece of a program. -/
structure Scope where
  /-- the local variables in sight, innermost first, each with whether it may be assigned to -/
  locals : List (String × Bool)
  /-- whether a loop of the same function surrounds it -/
  inLoop : Bool
  /-- whether its function takes further arguments -/
  isVariadic : Bool
  /-- the labels of the same function that stand before it in blocks around it -/
  labels : List String

namespace Scope

/-- The scope with further variables that may be assigned to. -/
def declare (scope : Scope) (names : List String) : Scope :=
  { scope with locals := (names.map fun x => (x, true)).reverse ++ scope.locals }

/-- The scope with further variables, some of which may not be assigned to. -/
def declareAll (scope : Scope) (names : List (String × Attribute)) : Scope :=
  { scope with
    locals := (names.map fun (x, a) => (x, a == .regular)).reverse ++ scope.locals }

/-- The scope inside a loop. -/
def loop (scope : Scope) : Scope := { scope with inLoop := true }

/-- The scope inside a function. -/
def function (scope : Scope) (f : Function) : Scope :=
  { locals := (f.parameters.map fun x => (x, true)).reverse ++ scope.locals
    inLoop := false, isVariadic := f.isVariadic, labels := [] }

/-- Whether a name may be assigned to. -/
def mayAssign (scope : Scope) (x : String) : Bool := (scope.locals.lookup x).getD true

/-- The scope behind a statement. -/
def after (scope : Scope) : Stat → Scope
  | .local names _ _ => scope.declareAll names
  | .localFunction x _ => scope.declare [x]
  | .label l => { scope with labels := l :: scope.labels }
  | _ => scope

end Scope

/-! ## Jumps inside one block -/

/-- Whether a statement does nothing. -/
def isVoid : Stat → Bool
  | .label _ => true
  | _ => false

/-- Whether a statement declares a local variable. -/
def declares : Stat → Bool
  | .local _ _ _ | .localFunction _ _ => true
  | _ => false

/-- Whether a statement is that label. -/
def isLabel (l : String) : Stat → Bool
  | .label other => other == l
  | _ => false

/-- Whether a jump to a label further on in a block enters the scope of no local variable: none is
declared on the way, or nothing but labels follows. In the block of a `repeat` the condition
follows. -/
def mayJumpForward (l : String) (isRepeat : Bool) (rest : List Stat) : Bool :=
  let onTheWay := rest.takeWhile fun stat => !isLabel l stat
  let behind := rest.dropWhile fun stat => !isLabel l stat
  !onTheWay.any declares || (!isRepeat && behind.all isVoid)

/-- The jumps of a statement that its block does not hold the label of, if those that it does may
be made. `before` are the statements in front, in any order, `rest` those behind. -/
def leaving (isRepeat : Bool) (before rest : List Stat) : List String → Option (List String)
  | [] => some []
  | l :: jumps => do
    let jumps ← leaving isRepeat before rest jumps
    -- a jump back enters no scope
    if before.any (isLabel l) then return jumps
    else if rest.any (isLabel l) then
      if mayJumpForward l isRepeat rest then return jumps else none
    else return l :: jumps

/-! ## The check -/

mutual

/-- Whether an expression keeps the rules. -/
def Expr.isScoped (scope : Scope) : Expr → Bool
  | .vararg => scope.isVariadic
  | .function f => f.isScoped scope
  | .index object key _ => object.isScoped scope && key.isScoped scope
  | .call callee arguments _ => callee.isScoped scope && areScoped scope arguments
  | .method object _ arguments _ _ => object.isScoped scope && areScoped scope arguments
  | .unary _ e _ => e.isScoped scope
  | .binary _ left right _ => left.isScoped scope && right.isScoped scope
  | .and left right => left.isScoped scope && right.isScoped scope
  | .or left right => left.isScoped scope && right.isScoped scope
  | .paren e => e.isScoped scope
  | .table fields => fieldsAreScoped scope fields
  | .nil | .bool _ | .number _ | .string _ | .name _ _ => true

/-- Whether all of some expressions keep the rules. -/
def areScoped (scope : Scope) : List Expr → Bool
  | [] => true
  | e :: rest => e.isScoped scope && areScoped scope rest

/-- Whether the fields of a table keep the rules. -/
def fieldsAreScoped (scope : Scope) : List TableField → Bool
  | [] => true
  | .item value :: rest => value.isScoped scope && fieldsAreScoped scope rest
  | .keyed key value _ :: rest =>
    key.isScoped scope && value.isScoped scope && fieldsAreScoped scope rest

/-- Whether a function keeps the rules; no jump leaves it. -/
def Function.isScoped (scope : Scope) : Function → Bool
  | .mk parameters isVariadic body =>
    blockJumps? (scope.function (.mk parameters isVariadic body)) false [] body == some []

/-- Whether targets of an assignment keep the rules. -/
def targetsAreScoped (scope : Scope) : List Expr → Bool
  | [] => true
  | .name x _ :: rest => scope.mayAssign x && targetsAreScoped scope rest
  | e :: rest => e.isScoped scope && targetsAreScoped scope rest

/-- The jumps that leave a statement, if it keeps the rules. -/
def Stat.jumps? (scope : Scope) : Stat → Option (List String)
  | .call e => if e.isScoped scope then some [] else none
  | .assign targets values _ =>
    if targetsAreScoped scope targets && areScoped scope values then some [] else none
  | .local _ values _ => if areScoped scope values then some [] else none
  -- the function sees itself, unlike the values of a declaration
  | .localFunction x f => if f.isScoped (scope.declare [x]) then some [] else none
  | .block body => blockJumps? scope false [] body
  | .while condition body =>
    if condition.isScoped scope then blockJumps? scope.loop false [] body else none
  | .repeat body condition =>
    match blockJumps? scope.loop true [] body with
    | some jumps =>
      -- the condition sees the variables of the body
      if condition.isScoped (body.foldl Scope.after scope) then some jumps else none
    | none => none
  | .if condition yes no =>
    if condition.isScoped scope then
      match blockJumps? scope false [] yes, blockJumps? scope false [] no with
      | some a, some b => some (a ++ b)
      | _, _ => none
    else none
  | .numericFor x start limit step body _ =>
    let stepIsScoped :=
      match step with
      | some step => step.isScoped scope
      | none => true
    if start.isScoped scope && limit.isScoped scope && stepIsScoped then
      blockJumps? (scope.loop.declare [x]) false [] body
    else none
  | .genericFor names values body _ =>
    if areScoped scope values then blockJumps? (scope.loop.declare names) false [] body else none
  | .return values => if areScoped scope values then some [] else none
  | .break => if scope.inLoop then some [] else none
  | .goto l => some [l]
  | .label l => if scope.labels.contains l then none else some []

/-- The jumps that leave a block, if it keeps the rules; `before` are the statements in front. -/
def blockJumps? (scope : Scope) (isRepeat : Bool) (before : List Stat) :
    List Stat → Option (List String)
  | [] => some []
  | stat :: rest =>
    match stat.jumps? scope with
    | none => none
    | some jumps =>
      match leaving isRepeat before (stat :: rest) jumps,
          blockJumps? (scope.after stat) isRepeat (stat :: before) rest with
      | some a, some b => some (a ++ b)
      | _, _ => none

end

/-- The scope of a whole program. -/
def Scope.program : Scope := { locals := [], inLoop := false, isVariadic := true, labels := [] }

/-- Whether a program keeps the rules. -/
def isScoped (body : List Stat) : Bool := blockJumps? .program false [] body == some []

end FeatureTransform.Lua
