import FeatureTransform.Json.Read
import FeatureTransform.Json.Write
import FeatureTransform.Script.Basic

/-!
# Help texts

The help of a script is a JSON object: it gives a text for declared names and for the script as a
whole. A value that is not a string counts as its own JSON text.
-/

namespace FeatureTransform

/-- Help texts by name; an object has each name once. -/
structure Help where
  /-- the texts, in increasing order of their names -/
  entries : List (String × String)
deriving DecidableEq, Repr

/-- Why a text is no help. -/
inductive HelpError where
  /-- it is not JSON -/
  | notJson (cause : Json.ReadError)
  /-- it is JSON of another kind -/
  | notObject
deriving DecidableEq, Repr

/-- The sentences that describe the error, outermost first. -/
def HelpError.causes : HelpError → List String
  | .notJson cause => ["Help file is not valid JSON", cause.message]
  | .notObject => ["Help file must contain a JSON object"]

namespace Help

/-- The text that a JSON value gives. -/
def textOf : Json → String
  | .string s => s
  | other => other.write

/-- The help that a JSON text holds. -/
def parse (text : String) : Except HelpError Help :=
  match Json.read text with
  | .error e => .error (.notJson e)
  | .ok (.object members) => .ok ⟨members.map fun (name, value) => (name, textOf value)⟩
  | .ok _ => .error .notObject

/-- The text for a name, unless it is empty. -/
def get? (help : Help) (name : String) : Option String :=
  match help.entries.lookup name with
  | none | some "" => none
  | some text => some text

/-- Whether there is no entry at all. -/
def isEmpty (help : Help) : Bool := help.entries.isEmpty

/-- The names under which the help names its authors and the version, each with its label. -/
def colophon : List (String × String) :=
  [("ALG_CREATOR", "Algorithm author"), ("ALG_HELP_CREATOR", "Help author"),
    ("ALG_VERSION", "Algorithm version")]

/-- The lines for those names that have a text. -/
def linesOf (help : Help) (names : List (String × String)) (before between : String) : String :=
  String.join <| names.filterMap fun (name, label) =>
    (help.get? name).map fun text => before ++ label ++ between ++ text ++ "\n"

/-- The help of a script as plain text: its description, then the declared names in the order of
their declaration, parameters first, then the authors and the version. -/
def format (help : Help) (script : Script) : String :=
  let description :=
    match help.get? "ALG_DESC" with
    | some text => text ++ "\n\n"
    | none => ""
  let names := script.parameters.map Parameter.name ++ script.outputs.map Output.name
  let declared := help.linesOf (names.map fun name => (name, name)) "  " ": "
  let parameters := if declared = "" then "" else "Parameters:\n" ++ declared ++ "\n"
  let text := description ++ parameters ++ help.linesOf colophon "" ": "
  String.ofList (Text.trimEnd text.toList)

end Help

end FeatureTransform
