import FeatureTransform.Lua.Number

/-!
# The syntax of Lua

Expressions, statements and functions as the parser builds them. Every node whose evaluation may
raise an error keeps the line to be named in its message. Names are not resolved: a name means the
innermost local variable so called, and without one a field of the variable `_ENV`.
-/

namespace FeatureTransform.Lua

/-- The operators of one operand. -/
inductive UnaryOp where
  /-- `-` -/
  | minus
  /-- `not` -/
  | not
  /-- `#` -/
  | length
  /-- `~` -/
  | bnot
deriving DecidableEq, Repr

/-- The operators of two operands that always evaluate both. -/
inductive BinaryOp where
  /-- `+`, `-`, `*`, `/`, `%`, `^` and `//` -/
  | arith (op : Arith)
  /-- `&`, `|`, `~`, `<<` and `>>` -/
  | bitwise (op : Bitwise)
  /-- `..` -/
  | concat
  /-- `==` -/
  | eq
  /-- `~=` -/
  | ne
  /-- `<` -/
  | lt
  /-- `<=` -/
  | le
  /-- `>` -/
  | gt
  /-- `>=` -/
  | ge
deriving DecidableEq, Repr

/-- What a declaration says of a local variable. -/
inductive Attribute where
  /-- nothing -/
  | regular
  /-- it is never assigned to -/
  | const
  /-- it is closed when its block ends -/
  | close
deriving DecidableEq, Repr

mutual

/-- An expression. -/
inductive Expr where
  /-- `nil` -/
  | nil
  /-- `true` and `false` -/
  | bool (b : Bool)
  /-- a numeral -/
  | number (n : Number)
  /-- a string literal -/
  | string (s : ByteArray)
  /-- `...` -/
  | vararg
  /-- a function -/
  | function (f : Function)
  /-- a variable -/
  | name (x : String) (line : Nat)
  /-- `table[key]` -/
  | index (table key : Expr) (line : Nat)
  /-- `callee(arguments)` -/
  | call (callee : Expr) (arguments : List Expr) (line : Nat)
  /-- `object:name(arguments)`; the method is looked up on a line of its own -/
  | method (object : Expr) (name : String) (arguments : List Expr) (lookupLine line : Nat)
  /-- an operator and its operand -/
  | unary (op : UnaryOp) (operand : Expr) (line : Nat)
  /-- an operator between its operands -/
  | binary (op : BinaryOp) (left right : Expr) (line : Nat)
  /-- `left and right` -/
  | and (left right : Expr)
  /-- `left or right` -/
  | or (left right : Expr)
  /-- an expression in parentheses, which has one value -/
  | paren (e : Expr)
  /-- a table constructor -/
  | table (fields : List TableField)

/-- A field of a table constructor. -/
inductive TableField where
  /-- the next item -/
  | item (value : Expr)
  /-- `[key] = value` and `name = value` -/
  | keyed (key value : Expr) (line : Nat)

/-- A function. -/
inductive Function where
  /-- its parameters, whether it takes further arguments, and its statements -/
  | mk (parameters : List String) (isVariadic : Bool) (body : List Stat)

/-- A statement. -/
inductive Stat where
  /-- a call -/
  | call (e : Expr)
  /-- `targets = values` -/
  | assign (targets values : List Expr) (line : Nat)
  /-- `local names = values` -/
  | «local» (names : List (String × Attribute)) (values : List Expr) (line : Nat)
  /-- `local function name` -/
  | localFunction (name : String) (f : Function)
  /-- `do body end` -/
  | block (body : List Stat)
  /-- `while condition do body end` -/
  | «while» (condition : Expr) (body : List Stat)
  /-- `repeat body until condition` -/
  | «repeat» (body : List Stat) (condition : Expr)
  /-- `if condition then yes else no end`; an `elseif` is an `if` in the other branch -/
  | «if» (condition : Expr) (yes no : List Stat)
  /-- `for name = start, limit, step do body end` -/
  | numericFor (name : String) (start limit : Expr) (step : Option Expr) (body : List Stat)
      (line : Nat)
  /-- `for names in values do body end` -/
  | genericFor (names : List String) (values : List Expr) (body : List Stat) (line : Nat)
  /-- `return values` -/
  | «return» (values : List Expr)
  /-- `break` -/
  | «break»
  /-- `goto label` -/
  | goto (label : String)
  /-- `::label::` -/
  | label (label : String)

end

/-- The parameters of a function. -/
def Function.parameters : Function → List String
  | .mk parameters _ _ => parameters

/-- Whether a function takes further arguments. -/
def Function.isVariadic : Function → Bool
  | .mk _ isVariadic _ => isVariadic

/-- The statements of a function. -/
def Function.body : Function → List Stat
  | .mk _ _ body => body

/-- Whether an expression may have any number of values. -/
def Expr.isMulti : Expr → Bool
  | .vararg | .call _ _ _ | .method _ _ _ _ _ => true
  | _ => false

/-- A variable or index expression, to be looked up on that line; other expressions stay as they
are. -/
def Expr.settled (line : Nat) : Expr → Expr
  | .name x _ => .name x line
  | .index object key _ => .index object key line
  | e => e

end FeatureTransform.Lua
