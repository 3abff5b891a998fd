import FeatureTransform.Json.Read
import FeatureTransform.Log
import FeatureTransform.Lua.Syntax
import FeatureTransform.Lua.Table
import FeatureTransform.Text.Utf8

/-!
# The state of a running program

A store holds tables, variables, functions and errors by number; things are added to it and never
taken away. A computation starts from a store and ends in one of three ways: it is done, it raises
an error, or it does not end. The first two leave a store behind, so that an error may be caught.
-/

namespace FeatureTransform.Lua

/-! ## Errors -/

/-- What the host wants to turn a value into. -/
inductive HostType where
  /-- a text that belongs to it -/
  | string
  /-- a text that it only looks at -/
  | str
deriving DecidableEq, Repr

/-- The name of the type. -/
def HostType.name : HostType → String
  | .string => "String"
  | .str => "&str"

/-- An error of a function that belongs to the host. -/
inductive HostError where
  /-- a text is not JSON -/
  | notJson (cause : Json.ReadError)
  /-- a value of this type has no JSON form -/
  | notEncodable (type : String)
  /-- a value of this type is neither string nor number -/
  | notText (type : String)
  /-- a string is not UTF-8 -/
  | notUtf8 (target : HostType) (fault : Utf8.Fault)
  /-- an argument is wrong -/
  | badArgument (position : Nat) (cause : HostError)

/-- The sentence that describes the error. -/
def HostError.message : HostError → String
  | .notJson cause => cause.message
  | .notEncodable type => s!"runtime error: cannot encode a {type} value as JSON"
  | .notText type => s!"error converting Lua {type} to String (expected string or number)"
  | .notUtf8 target fault => s!"error converting Lua string to {target.name} ({fault.message})"
  | .badArgument position cause => s!"bad argument #{position}: {cause.message}"

/-- What a computation raises. -/
inductive Raised where
  /-- a value -/
  | value (v : Value)
  /-- there is no room for what it wants to build -/
  | memory

/-- The value that an error hands to what catches it. -/
def Raised.toValue : Raised → Value
  | .value v => v
  | .memory => .text "not enough memory"

/-! ## Stores -/

/-- The local variables in sight, innermost first, each with the number of its cell. -/
abbrev Env := List (String × Nat)

/-- A function and the variables that it sees. -/
structure Closure where
  /-- the function -/
  function : Function
  /-- the variables in sight where it was made -/
  env : Env

/-- The state of a running program. -/
structure Store where
  /-- the tables -/
  tables : Array Table
  /-- the values of the local variables -/
  cells : Array Value
  /-- the functions -/
  closures : Array Closure
  /-- the errors of the host -/
  failures : Array HostError
  /-- what the program has told the user, last first -/
  feedback : List Feedback

/-- The table of the global variables. -/
def globalsRef : Nat := 0

/-- The table that says how strings behave. -/
def stringMetaRef : Nat := 1

/-- The table that marks tables made from JSON arrays. -/
def arrayMetaRef : Nat := 2

/-! ## Computations -/

/-- How a computation ends. -/
inductive Ending (α : Type) where
  /-- with a result -/
  | done (a : α) (store : Store)
  /-- with an error -/
  | raised (e : Raised) (store : Store)
  /-- not at all -/
  | endless

/-- A computation over a store. -/
def Eval (α : Type) : Type := Store → Ending α

namespace Eval

variable {α β : Type}

/-- The computation that has a result and changes nothing. -/
@[inline] protected def pure (a : α) : Eval α := fun store => .done a store

/-- One computation after another. -/
@[inline] protected def bind (x : Eval α) (f : α → Eval β) : Eval β := fun store =>
  match x store with
  | .done a store => f a store
  | .raised e store => .raised e store
  | .endless => .endless

instance : Monad Eval where
  pure := Eval.pure
  bind := Eval.bind

/-- Raises an error. -/
@[inline] def raise (e : Raised) : Eval α := fun store => .raised e store

/-- Raises a value. -/
def raiseValue (v : Value) : Eval α := raise (.value v)

/-- Runs a computation; an error that it raises is a result. -/
@[inline] def attempt (x : Eval α) : Eval (Except Raised α) := fun store =>
  match x store with
  | .done a store => .done (.ok a) store
  | .raised e store => .done (.error e) store
  | .endless => .endless

/-- Something that the store tells. -/
@[inline] def read (f : Store → α) : Eval α := fun store => .done (f store) store

/-- Changes the store. -/
@[inline] def change (f : Store → Store) : Eval Unit := fun store => .done () (f store)

/-- Repeats a step until it is done; one that is still not done after so many turns has no end. -/
def loop (step : α → Eval (α ⊕ β)) : (turns : Nat) → α → Eval β
  | 0, _ => fun _ => .endless
  | turns + 1, a => fun store =>
    match step a store with
    | .done (.inl a) store => loop step turns a store
    | .done (.inr b) store => .done b store
    | .raised e store => .raised e store
    | .endless => .endless

/-- How many turns of a loop can be waited for. -/
def maxTurns : Nat := 0x1000000000000000

/-- Repeats a step until it is done. -/
@[inline] def repeatedly (step : α → Eval (α ⊕ β)) (a : α) : Eval β := loop step maxTurns a

/-! ## Tables -/

/-- The table of that number. -/
def table (ref : Nat) : Eval Table := read fun store => (store.tables[ref]?).getD .empty

/-- The number of a new table. -/
def newTable (t : Table) : Eval Nat := fun store =>
  .done store.tables.size { store with tables := store.tables.push t }

/-- Changes the table of that number. -/
def changeTable (ref : Nat) (f : Table → Table) : Eval Unit :=
  change fun store => { store with tables := store.tables.modify ref f }

/-- The value of a key in a table. -/
def rawGet (ref : Nat) (key : Key) : Eval Value :=
  read fun store =>
    match store.tables[ref]? with
    | some t => t.get key
    | none => .nil

/-- Sets the value of a key in a table. -/
def rawSet (ref : Nat) (key : Key) (v : Value) : Eval Unit :=
  changeTable ref fun t => t.set key v

/-! ## Variables, functions, messages -/

/-- The value of a variable. -/
def cell (ref : Nat) : Eval Value := read fun store => (store.cells[ref]?).getD .nil

/-- The number of a new variable. -/
def newCell (v : Value) : Eval Nat := fun store =>
  .done store.cells.size { store with cells := store.cells.push v }

/-- Sets the value of a variable. -/
def setCell (ref : Nat) (v : Value) : Eval Unit :=
  change fun store => { store with cells := store.cells.setIfInBounds ref v }

/-- A new function. -/
def newClosure (f : Function) (env : Env) : Eval Value := fun store =>
  .done (.closure store.closures.size)
    { store with closures := store.closures.push { function := f, env := env } }

/-- The function of that number. -/
def closure? (ref : Nat) : Eval (Option Closure) := read fun store => store.closures[ref]?

/-- Raises an error of the host. -/
def raiseHost (e : HostError) : Eval α := fun store =>
  .raised (.value (.failure store.failures.size)) { store with failures := store.failures.push e }

/-- The message of an error of the host. -/
def failureMessage (ref : Nat) : Eval String :=
  read fun store =>
    match store.failures[ref]? with
    | some e => e.message
    | none => ""

/-- Tells the user something. -/
def tell (kind : FeedbackKind) (text : String) : Eval Unit :=
  change fun store => { store with feedback := { kind := kind, text := text } :: store.feedback }

/-! ## Room -/

/-- How many bytes a program may take. -/
def memoryLimit : Nat := 256 * 1024 * 1024

/-- Goes on only if there is room for so many bytes. -/
def reserve (bytes : Nat) : Eval Unit := if memoryLimit < bytes then raise .memory else pure ()

end Eval

end FeatureTransform.Lua
