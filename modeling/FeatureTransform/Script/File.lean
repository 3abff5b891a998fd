import FeatureTransform.Folder.Tree
import FeatureTransform.Log
import FeatureTransform.Script.Builtin
import FeatureTransform.Script.Help

/-!
# Scripts in files

A script file gives the script its default name, as far as it is a text, and its full path is kept,
so that the script can be read again. The help of a script stands in a file beside it, whose name
goes on with `.help`.
-/

namespace FeatureTransform.Script

/-! ## Reading -/

/-- The file name that a script is named for; there is none where a path ends in no name. -/
def shownName (name? : Option FileName) : String := (name?.map FileName.text).getD ""

/-- The script in a file, by the names that lead to the file and what the file holds. -/
def ofContent (names : List FileName) (content : ByteArray) : Except FileError Script :=
  match String.fromUTF8? content with
  | none => .error .notText
  | some text => .ok (ofNamed (shownName names.getLast?) text (.file (Path.ofNames names)))

/-- Why the script at a path cannot be read. -/
def unreadable (path : Path) (e : FileError) : Failure :=
  { causes := [s!"Failed to read script file: {path.text}", e.message] }

/-- The script in the file at a path. -/
def load (tree : FileTree) (path : Path) : Except Failure Script :=
  match tree.readText path with
  | .error e => .error (unreadable path e)
  | .ok text =>
    let full := (tree.canonical path).toOption.getD path
    .ok (ofNamed (shownName full.fileName?) text (.file full))

/-- The script that belongs to the program and has that file name. -/
def loadBuiltin (name : String) : Except Failure Script :=
  match ofBuiltin? name with
  | some script => .ok script
  | none => .error (.of s!"No built-in script named '{name}'")

/-- The script read once more from where it came from. -/
def reload (tree : FileTree) (script : Script) : Except Failure Script :=
  match script.origin with
  | .file path => load tree path
  | .builtin name => loadBuiltin name
  | .inline source => .ok (ofSource source)

/-! ## Notes -/

/-- Who takes the notes on header lines. -/
def headerNotes : String := "luaproc_cli::script::parser"

/-- The notes on rejected header lines: the first is held by the script, the others are told. -/
def notesOn : (isFirst : Bool) → List (String × HeaderError) → List Note
  | _, [] => []
  | isFirst, (line, e) :: rest =>
    let rejected : Note :=
      { level := .debug, source := headerNotes
        text := s!"Header line rejected ({e.message}): {line}" }
    let additional : Note :=
      { level := .warn, source := headerNotes, text := s!"Additional header syntax error: {line}" }
    (if isFirst then [rejected] else [rejected, additional]) ++ notesOn false rest

/-- The notes on reading a script. -/
def notes (script : Script) : List Note := notesOn true script.rejected

/-! ## Help -/

/-- What the name of a help file adds to the name of the script. -/
def helpEnding : String := ".help"

/-- The help that a text holds. -/
def readHelp (text : String) : Except Failure (Option Help) :=
  match Help.parse text with
  | .ok help => .ok (some help)
  | .error e => .error { causes := e.causes }

/-- The help of a script, if it has one. -/
def loadHelp (tree : FileTree) (script : Script) : Except Failure (Option Help) :=
  match script.origin with
  | .inline _ => .ok none
  | .builtin name =>
    match (builtin? name).bind Builtin.help? with
    | some text => readHelp text
    | none => .ok none
  | .file path =>
    let path := path.extend helpEnding
    if tree.isFile path then
      match tree.readText path with
      | .error e => .error { causes := [s!"Failed to read help file: {path.text}", e.message] }
      | .ok text => readHelp text
    else .ok none

end FeatureTransform.Script
