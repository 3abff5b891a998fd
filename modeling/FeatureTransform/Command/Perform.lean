import FeatureTransform.Command.Inspect
import FeatureTransform.Command.List
import FeatureTransform.Command.Run

/-!
# Performing commands

From a list of arguments and the files as they are to what is shown, what is said, what is written
and the exit code: 0 for success, 1 for a failure, 2 for arguments that ask for nothing.
-/

namespace FeatureTransform.Command

/-- What comes of a list of arguments. -/
structure Result where
  /-- the exit code -/
  exit : Nat
  /-- the lines shown, in order -/
  shown : List String
  /-- the remarks that the user sees, in order -/
  remarks : List Remark
  /-- the files written, each with its text, in order -/
  written : List (Path × String)
  /-- the files as they are afterwards -/
  tree : FileTree
  /-- how much the user asks to be told -/
  verbosity : Nat

/-- How the program is used. -/
def usageText : String :=
  "Run typed Lua transforms over GeoJSON features

Usage: luaproc [OPTIONS] <COMMAND>

Commands:
  list     List available scripts [--user-only]
  inspect  Show a script's declarations and help <SCRIPT> [--json] [--source]
  run      Run a script over a GeoJSON file <SCRIPT> --input <FILE> [--output <FILE>]
           [--param <NAME=VALUE>]... [--field <NAME:TYPE>]... [--source-crs <AUTHID>]
           [--target-crs <AUTHID>] [--fail-fast]
  folders  Show or edit the configured script folders [--add <DIR>] [--remove <DIR>]
  help     Print this message

Options:
  -v, --verbose...    Increase log verbosity
      --no-color      Disable colored output
      --folder <DIR>  Script folder to scan instead of the configured ones (repeatable)
  -h, --help          Print help
  -V, --version       Print version"

/-- The line that tells the version. -/
def versionLine : String := "luaproc 0.1.0"

/-- Performs a command. -/
def perform (places : Places) (general : General) : Command → Step Unit
  | .list userOnly => listScripts places general userOnly
  | .inspect inspection => inspectScript places general inspection
  | .run job => runScript places general job
  | .folders change => lookAfterFolders places change

/-- What comes of arguments that ask for no command. -/
def Halt.result (tree : FileTree) : Halt → Result
  | .help => ⟨0, [usageText], [], [], tree, 0⟩
  | .version => ⟨0, [versionLine], [], [], tree, 0⟩
  | .usage e => ⟨2, [], [.sentence ("error: " ++ e.message), .sentence usageText], [], tree, 0⟩

/-- What comes of a list of arguments. -/
def result (places : Places) (tree : FileTree) (arguments : List String) : Result :=
  match ofArguments arguments with
  | .error halt => halt.result tree
  | .ok (general, command) =>
    let start : Console := { tree := tree, written := [], shown := [], remarks := [] }
    let (outcome, console) := (perform places general command).run.run start
    let (exit, remarks) :=
      match outcome with
      | .ok () => (0, console.remarks)
      | .error failure => (1, .sentence ("Error: " ++ failure.message) :: console.remarks)
    { exit := exit
      shown := console.shown.reverse
      remarks := remarks.reverse
      written := console.written.reverse
      tree := console.tree
      verbosity := general.verbosity }

/-- The lines shown, as one text. -/
def Result.output (result : Result) : String := String.join (result.shown.map (· ++ "\n"))

/-- The remarks, as one text, for a run that took a time in milliseconds. -/
def Result.commentary (result : Result) (time : String) : String :=
  String.join ((result.remarks.filterMap (Remark.render result.verbosity time)).map (· ++ "\n"))

end FeatureTransform.Command
