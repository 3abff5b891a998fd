import FeatureTransform.Command.Arguments
import FeatureTransform.Folder.Path

/-!
# Commands

What the program can be asked to do: list scripts, show one, run one over features, look after the
folders in which scripts are looked for. Some options belong to all commands; they may stand before
or after the name of the command, and those behind it replace those before.
-/

namespace FeatureTransform.Command

/-- What holds for every command. -/
structure General where
  /-- how much the program tells: notes for those who look for faults if not zero -/
  verbosity : Nat
  /-- folders to look for scripts in, instead of those of the settings -/
  folders : List Path
deriving DecidableEq, Repr

/-- How a script is to be shown. -/
structure Inspection where
  /-- which script -/
  query : String
  /-- as JSON -/
  asJson : Bool
  /-- with its text -/
  withSource : Bool
deriving DecidableEq, Repr

/-- How a script is to be run. -/
structure Job where
  /-- which script -/
  query : String
  /-- the file with the features -/
  input : Path
  /-- the file for the results, if they are not to be shown -/
  output? : Option Path
  /-- values for parameters, each written as a name, an equals sign and the value -/
  values : List String
  /-- further fields of the results, each written as a name, a colon and the type -/
  fields : List String
  /-- the reference system of the features -/
  source : String
  /-- the reference system that the script sees -/
  target : String
  /-- whether the first failure ends the run -/
  stopsAtFailure : Bool
deriving DecidableEq, Repr

/-- How the folders in the settings are to be changed. -/
structure FolderChange where
  /-- the folder to be added -/
  added? : Option Path
  /-- the folder to be removed -/
  removed? : Option Path
deriving DecidableEq, Repr

end Command

/-- A command. -/
inductive Command where
  /-- list the scripts; only those of the user, if so wished -/
  | list (userOnly : Bool)
  /-- show a script -/
  | inspect (inspection : Command.Inspection)
  /-- run a script -/
  | run (job : Command.Job)
  /-- show the folders, after changing them if so wished -/
  | folders (change : Command.FolderChange)
deriving DecidableEq, Repr

namespace Command

/-! ## Options -/

/-- The options of all commands. -/
def generalSwitches : List Switch :=
  [{ name := "verbose", letter? := some 'v', form := .count },
    { name := "no-color", letter? := none, form := .flag },
    { name := "folder", letter? := none, form := .paths },
    { name := "help", letter? := some 'h', form := .help }]

/-- The options in front of a command. -/
def leadingSwitches : List Switch :=
  generalSwitches ++ [{ name := "version", letter? := some 'V', form := .version }]

/-- The names of the commands. -/
inductive Name where
  /-- list the scripts -/
  | list
  /-- show a script -/
  | inspect
  /-- run a script -/
  | run
  /-- look after the folders -/
  | folders
deriving DecidableEq, Repr

/-- The command of that name. -/
def Name.ofText? : String → Option Name
  | "list" => some .list
  | "inspect" => some .inspect
  | "run" => some .run
  | "folders" => some .folders
  | _ => none

/-- The options of a command. -/
def Name.switches : Name → List Switch
  | .list => [{ name := "user-only", letter? := none, form := .flag }]
  | .inspect =>
    [{ name := "json", letter? := none, form := .flag },
      { name := "source", letter? := none, form := .flag }]
  | .run =>
    [{ name := "input", letter? := some 'i', form := .path },
      { name := "output", letter? := some 'o', form := .path },
      { name := "param", letter? := some 'p', form := .texts },
      { name := "field", letter? := some 'f', form := .texts },
      { name := "source-crs", letter? := none, form := .text },
      { name := "target-crs", letter? := none, form := .text },
      { name := "fail-fast", letter? := none, form := .flag }]
  | .folders =>
    [{ name := "add", letter? := none, form := .path },
      { name := "remove", letter? := none, form := .path }]

/-- How many operands a command has. -/
def Name.operandCount : Name → Nat
  | .list | .folders => 0
  | .inspect | .run => 1

/-! ## Meaning -/

/-- The reference system that is meant where none is given. -/
def usualSystem : String := "EPSG:4326"

/-- The script that is named. -/
def scriptOf (given : Given) : Except Halt String :=
  match given.operands with
  | [] => .error (.usage (.missing "the script"))
  | query :: _ => .ok query

/-- The command that its name and the arguments behind it ask for. -/
def Name.meaning (name : Name) (given : Given) : Except Halt Command :=
  match name with
  | .list => .ok (.list (given.has "user-only"))
  | .inspect => do
    return .inspect
      { query := ← scriptOf given, asJson := given.has "json", withSource := given.has "source" }
  | .run => do
    let query ← scriptOf given
    match given.value? "input" with
    | none => .error (.usage (.missing "the input file"))
    | some input =>
      return .run
        { query := query
          input := input
          output? := (given.value? "output").map Path.ofText
          values := given.values "param"
          fields := given.values "field"
          source := (given.value? "source-crs").getD usualSystem
          target := (given.value? "target-crs").getD usualSystem
          stopsAtFailure := given.has "fail-fast" }
  | .folders =>
    .ok (.folders
      { added? := (given.value? "add").map Path.ofText
        removed? := (given.value? "remove").map Path.ofText })

/-- The values of an option of all commands: those behind the name of the command, if any. -/
def generalValues (before behind : Given) (name : String) : List String :=
  if behind.has name then behind.values name else before.values name

/-- What holds for every command by the arguments before its name and behind it. -/
def General.of (before behind : Given) : General where
  verbosity := (generalValues before behind "verbose").length
  folders := (generalValues before behind "folder").map Path.ofText

/-- What the arguments behind the word `help` ask for: they may name a command. -/
def helpOn : List String → Halt
  | [] | ["help"] => .help
  | name :: rest =>
    match Name.ofText? name, rest with
    | none, _ => .usage (.unknownCommand name)
    | some _, [] => .help
    | some _, extra :: _ => .usage (.unknownCommand extra)

/-- What a list of arguments asks for. -/
def ofArguments (arguments : List String) : Except Halt (General × Command) := do
  let (before, rest) ← scan leadingSwitches true 0 .empty arguments
  match rest with
  | [] => .error (.usage (.missing "a subcommand"))
  | "help" :: rest => .error (helpOn rest)
  | word :: rest =>
    match Name.ofText? word with
    | none => .error (.usage (.unknownCommand word))
    | some name =>
      let (behind, _) ←
        scan (generalSwitches ++ name.switches) false name.operandCount .empty rest
      let command ← name.meaning behind
      return (General.of before behind, command)

end Command

end FeatureTransform
