import FeatureTransform.Engine
import FeatureTransform.Lua.Execute
import FeatureTransform.Lua.Parse
import FeatureTransform.Lua.Scope
import FeatureTransform.Lua.Start

/-!
# The engine

Lua as an engine: programs are evaluated one after another in one state, and an error leaves behind
what was done before it. The host gives texts to a function and takes one value back. It sees an
error as a sentence; a value that is raised becomes one by its metamethod, up to its first NUL.
-/

namespace FeatureTransform.Lua

/-! ## Errors as sentences -/

/-- The bytes up to the first NUL. -/
def uptoNul (s : ByteArray) : ByteArray := ⟨(s.data.toList.takeWhile (· ≠ 0)).toArray⟩

/-- The sentence about an error. If the metamethod that words it fails, the error is another one, so
many times at most. -/
def sentence : (attempts : Nat) → Raised → Eval String
  | 0, _ => return "runtime error: error in error handling"
  | _, .memory => return "memory error: not enough memory"
  | _, .value (.failure ref) => Eval.failureMessage ref
  | attempts + 1, .value v => do
    match ← Eval.attempt (toText call { line? := none, callers := [] } v) with
    | .ok s => return "runtime error: " ++ Utf8.lossy (uptoNul s)
    | .error e => sentence attempts e

/-- The sentence about a text that is no program. -/
def SyntaxFault.sentence : SyntaxFault → String
  | .malformed => "syntax error"
  | .tooDeep => "runtime error: C stack overflow"

/-- The sentence about a program that does not end. -/
def endlessSentence : String := "runtime error: the program does not end"

/-- The result of a computation, or the sentence about its error. Nothing is left of a state in
which a program does not end. -/
def outcome {α : Type} (x : Eval α) (store : Store) : Except String α × Store :=
  match x store with
  | .done a store => (.ok a, store)
  | .raised e store =>
    match sentence 200 e store with
    | .done s store => (.error s, store)
    | .raised _ store => (.error endlessSentence, store)
    | .endless => (.error endlessSentence, .start)
  | .endless => (.error endlessSentence, .start)

/-! ## Programs -/

/-- The statements of a program text. -/
def readProgram (text : String) : Except SyntaxFault (List Stat) := do
  let body ← parse text.toList
  if isScoped body then return body else .error .malformed

/-- Runs a program: a function of any arguments, in whose sight is the table of the globals. -/
def runProgram (body : List Stat) : Eval Unit := do
  let ref ← Eval.newCell (.table globalsRef)
  let f ← Eval.newClosure (.mk [] true body) [(environmentName, ref)]
  let _ ← call f [] []

/-- Evaluates a program text. -/
def evaluate (text : String) (store : Store) : Except String Unit × Store :=
  match readProgram text with
  | .error fault => (.error fault.sentence, store)
  | .ok body => outcome (runProgram body) store

/-! ## Values for the host -/

/-- The value of a global variable, if it has one. -/
def global (name : String) (store : Store) : Option Value :=
  match ((store.tables[globalsRef]?).getD .empty).getText name with
  | .nil => none
  | v => some v

/-- The function by which a table is called. -/
def callHandlerOf (ref : Nat) (store : Store) : Option Value :=
  let metatable := (store.tables[ref]?).bind (·.metatable)
  match (metatable.bind (store.tables[·]?)).map (·.getText "__call") with
  | some handler => if handler.isFunction then some handler else none
  | none => none

/-- Whether the host can call a value: a function, or a table with a function for that. -/
def isCallable (v : Value) (store : Store) : Bool :=
  match v with
  | .table ref => (callHandlerOf ref store).isSome
  | v => v.isFunction

/-- The text that the host takes from a value, if the value is any. -/
def resultText (v : Value) : Except String (Option String) :=
  match v with
  | .nil | .bool false => .ok none
  | .bool true => .ok (some "true")
  | .number (.int i) => .ok (some (Decimal.intString i.toInt))
  | .number (.float f) => .ok (some (Decimal.plainText f))
  | .string s => ((utf8Text .str s).map some).mapError HostError.message
  | v => .error s!"Call returned a {v.hostTypeName} value, expected a string"

/-- Calls a value with texts. -/
def callForText (v : Value) (arguments : List String) (store : Store) :
    Except String (Option String) × Store :=
  let run (f : Value) (arguments : List Value) : Except String (Option String) × Store :=
    match outcome (call f arguments []) store with
    | (.ok vs, store) => (resultText (firstOf vs), store)
    | (.error e, store) => (.error e, store)
  let arguments := arguments.map Value.text
  match v with
  | .closure _ | .builtin _ => run v arguments
  | .table ref =>
    match callHandlerOf ref store with
    | some handler => run handler (v :: arguments)
    | none => (.error "Table has no __call metamethod", store)
  | v => (.error s!"Cannot call a {v.hostTypeName} value", store)

/-- What the program has told the user since the last time, and the state without it. -/
def takeFeedback (store : Store) : List Feedback × Store :=
  (store.feedback.reverse, { store with feedback := [] })

/-- Lua as an engine. -/
def engine : Engine Store Value where
  evaluate text := fun store =>
    let (result, store) := evaluate text store
    (result.mapError fun e => { causes := ["Failed to evaluate script", e] }, store)
  -- to look at a store leaves it as it is
  global name := fun store => (.ok (global name store), store)
  isCallable v := fun store => (isCallable v store, store)
  call v arguments := fun store =>
    let (result, store) := callForText v arguments store
    (result.mapError fun e => { causes := [e] }, store)

end FeatureTransform.Lua
