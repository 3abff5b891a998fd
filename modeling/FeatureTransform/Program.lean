import FeatureTransform.Binding

/-!
# Program texts

What an engine evaluates is one text: an assignment for each parameter in the order of their
declaration, the record dispatcher, and the body of the script. Literals are written so that Lua
reads back exactly the value: strings escape what would end or break them, numbers show all digits
they need, and the numbers without digits are spelt as expressions.
-/

namespace FeatureTransform

/-- The global name of the function that a script defines. -/
def entryPoint : String := "func"

/-- The global name of the function that takes a record to the script and back. -/
def dispatcherName : String := "__luaproc_dispatch"

/-- The dispatcher: it decodes the record, calls the script and encodes the result. -/
def dispatcherText : String :=
  "function __luaproc_dispatch(record)
  local result = func(json.decode(record))
  if not result then
    return nil
  end
  return json.encode(result)
end
"

/-- The words that Lua does not take as names. -/
def luaKeywords : List String :=
  ["and", "break", "do", "else", "elseif", "end", "false", "for", "function", "goto", "if", "in",
    "local", "nil", "not", "or", "repeat", "return", "then", "true", "until", "while"]

/-- Whether a text is a name of Lua. -/
def isIdentifier (name : String) : Bool :=
  match name.toList with
  | [] => false
  | c :: rest =>
    (c.isAlpha || c == '_') && rest.all (fun c => c.isAlphanum || c == '_')
      && !luaKeywords.contains name

/-! ## Literals -/

/-- How a character is written inside a string literal. A control character of ASCII is written by
its code, in three digits. -/
def literalCharacter (c : Char) : Text :=
  if c = '\\' then ['\\', '\\']
  else if c = '"' then ['\\', '"']
  else if c = '\n' then ['\\', 'n']
  else if c = '\r' then ['\\', 'r']
  else if c = '\t' then ['\\', 't']
  else if c.toNat < 0x20 ∨ c.toNat = 0x7F then
    let n := c.toNat
    ['\\', Decimal.digitChar (n / 100), Decimal.digitChar (n / 10 % 10), Decimal.digitChar (n % 10)]
  else [c]

/-- A text as a string literal. -/
def stringLiteral (s : String) : String :=
  String.ofList ('"' :: s.toList.flatMap literalCharacter ++ ['"'])

/-- A double as an expression. -/
def numberLiteral (f : Float) : String :=
  if f.isNaN then "(0/0)"
  else if f.isInf then if 0 < f then "math.huge" else "-math.huge"
  else Decimal.literalText f

/-! ## Assignments -/

/-- Why no session can be built. -/
inductive BuildError where
  /-- the script holds an error -/
  | invalidScript (message : String)
  /-- a value is no number where one is wanted -/
  | invalidBinding (name value : String)
  /-- the engine does not answer -/
  | engine (message : String)
  /-- the script has taken the dispatcher's name -/
  | dispatcherOverwritten
  /-- the program cannot be evaluated -/
  | evaluation (message : String)
  /-- the script defines no function of the wanted name -/
  | noEntryPoint
  /-- what the script defines under that name is no function -/
  | entryPointNotCallable
deriving DecidableEq, Repr

/-- The sentence that describes the error. -/
def BuildError.message : BuildError → String
  | .invalidScript message => s!"script is not runnable: {message}"
  | .invalidBinding name value => s!"parameter '{name}' expects a number, got '{value}'"
  | .engine message => s!"engine error: {message}"
  | .dispatcherOverwritten => "engine error: record dispatcher was overwritten"
  | .evaluation message => s!"failed to evaluate script: {message}"
  | .noEntryPoint => "no entry point function detected"
  | .entryPointNotCallable => "entry point is not callable"

/-- What a program does about one parameter. -/
inductive Assignment where
  /-- the global variable of its name takes a value -/
  | assign (name literal : String)
  /-- nothing: the host acts on it -/
  | passThrough (p : Parameter)

/-- The literal of a value in the given style; a style without literals has none. -/
def literalOf (p : Parameter) (v : BoundValue) : Except BuildError Assignment :=
  match p.kind.bindingStyle with
  | .passThrough => .ok (.passThrough p)
  | .text => .ok (.assign p.name (stringLiteral (v.asText.getD "")))
  | .number =>
    match v.asNumber with
    | some f => .ok (.assign p.name (numberLiteral f))
    | none => .error (.invalidBinding p.name v.display)

/-- What a program does about a parameter that has this value, if any. -/
def Assignment.of (p : Parameter) (v? : Option BoundValue) : Except BuildError Assignment :=
  match v? with
  | none | some .null => .ok (.assign p.name "nil")
  | some v => literalOf p v

/-- How a global variable is named on the left of an assignment. -/
def assignmentTarget (name : String) : String :=
  if isIdentifier name then name else "_G[" ++ stringLiteral name ++ "]"

/-- The line of an assignment, if there is one. -/
def Assignment.line? : Assignment → Option String
  | .assign name literal => some (assignmentTarget name ++ " = " ++ literal ++ "\n")
  | .passThrough _ => none

namespace Program

/-- What a program does about each parameter, destinations apart, and where it fails to. -/
def steps (script : Script) (bindings : Bindings) : List (Except BuildError Assignment) :=
  (script.parameters.filter (!·.kind.isDestination)).map fun p =>
    Assignment.of p (bindings.get? p.name)

/-- The parameters that are passed over before the first failure. -/
def passedOver : List (Except BuildError Assignment) → List Parameter
  | .ok (.passThrough p) :: rest => p :: passedOver rest
  | .ok (.assign _ _) :: rest => passedOver rest
  | .error _ :: _ | [] => []

/-- The lines at the front of a program: one for each assignment. -/
def preamble (script : Script) (bindings : Bindings) : Except BuildError String := do
  let assignments ← (steps script bindings).mapM id
  return String.join (assignments.filterMap Assignment.line?)

/-- The program text of a script under given values. -/
def compose (script : Script) (bindings : Bindings) : Except BuildError String := do
  let assignments ← preamble script bindings
  return assignments ++ dispatcherText ++ script.body

end Program

end FeatureTransform
