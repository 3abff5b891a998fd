import FeatureTransform.Declaration.Basic
import FeatureTransform.Folder.Path

/-!
# Scripts

A script is a text whose lines that begin with `--#` form its header. The header names the script,
puts it into a group and declares parameters and outputs; all other lines are the body, which is
Lua. Header lines that mean nothing are kept, and a script that has any must not be run.
-/

namespace FeatureTransform

/-- Where a script comes from. -/
inductive Origin where
  /-- a file -/
  | file (path : Path)
  /-- the scripts that belong to the program -/
  | builtin (name : String)
  /-- a text given directly -/
  | inline (source : String)
deriving DecidableEq

/-- Why a header line is rejected. -/
inductive HeaderError where
  /-- it declares nothing -/
  | declaration (cause : DeclarationError)
  /-- the name it declares is declared already -/
  | duplicate (name : String)
deriving DecidableEq

/-- The sentence that describes the error. -/
def HeaderError.message : HeaderError → String
  | .declaration cause => cause.message
  | .duplicate name => s!"duplicate declaration '{name}'"

/-- A script, its header understood. -/
structure Script where
  /-- the name for commands: letters and digits of ASCII, in lower case -/
  id : String
  /-- the name for people -/
  displayName : String
  /-- the heading under which it is listed -/
  group : String
  /-- the declared parameters in the order of their lines -/
  parameters : List Parameter
  /-- the declared outputs in the order of their lines -/
  outputs : List Output
  /-- the lines read, header included, each ended by a newline -/
  text : String
  /-- the lines read that are not of the header -/
  body : String
  /-- the header lines that were rejected, in order, each with the reason -/
  rejected : List (String × HeaderError)
  /-- where the script comes from -/
  origin : Origin
deriving DecidableEq

namespace Script

/-- The error a script holds: it quotes the first rejected line. -/
def error? (script : Script) : Option String :=
  script.rejected.head?.map fun (line, _) =>
    s!"This script has a syntax error.\nProblem with line: {line}"

/-- Whether the script may be run. -/
def isRunnable (script : Script) : Bool := script.error?.isNone

/-- The parameter of that name. -/
def parameter? (script : Script) (name : String) : Option Parameter :=
  script.parameters.find? (·.name = name)

/-- The file that the script was read from. -/
def sourcePath? (script : Script) : Option Path :=
  match script.origin with
  | .file path => some path
  | _ => none

/-- Whether the script comes from outside the program. -/
def isUserScript (script : Script) : Bool :=
  match script.origin with
  | .builtin _ => false
  | _ => true

end Script

end FeatureTransform
