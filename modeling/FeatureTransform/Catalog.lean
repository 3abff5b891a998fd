import FeatureTransform.Script.File
import FeatureTransform.Text.Case

/-!
# The catalog of scripts

The scripts that can be chosen from: those of the program, and those in folders, at any depth. A
folder is gone through in the order of its names, whatever order a listing has. What has no usable
name or cannot be read is left out with a note; a script with a rejected header line is kept.
-/

namespace FeatureTransform.Catalog

/-! ## Folders -/

/-- Who takes the notes on looking for scripts. -/
def notesSource : String := "luaproc_cli::script::discovery"

/-- Whether a text is the file name of a script: its extension is `lua`, in any case. -/
def isScriptName (name : String) : Bool :=
  match Path.extension? name.toList with
  | some extension => extension.map Char.toLower == "lua".toList
  | none => false

/-- The script in a file, if there is a usable one, by the path that leads to the file and by the
names from the root. -/
def scanFile (path : Path) (names : List FileName) (content : ByteArray) : Noted (List Script) := do
  match Script.ofContent names content with
  | .error e =>
    let failure := Script.unreadable path e
    Noted.note .warn notesSource s!"Could not load script {path.text}: {failure.message}"
    return []
  | .ok script =>
    ({ value := (), notes := script.notes } : Noted Unit)
    if script.id = "" then
      Noted.note .warn notesSource s!"Skipping script without a usable name: {path.text}"
      return []
    else
      match script.error? with
      | some error => Noted.note .warn notesSource s!"{path.text}: {error}"
      | none => pure ()
      return [script]

mutual

/-- The scripts at or below a place in the order of their paths. -/
def scan (path : Path) (names : List FileName) : Node → Noted (List Script)
  | .file content =>
    -- a name that is no text is not looked at
    if (names.getLast?.bind FileName.text?).any isScriptName then scanFile path names content
    else pure []
  | .folder entries =>
    let found := scanEntries path names entries
    -- a listing has its own order, which must not show
    Noted.join ((found.mergeSort fun a b => a.1 ≤ b.1).map Prod.snd)

/-- The scripts at or below each entry of a folder, with its name. -/
def scanEntries (path : Path) (names : List FileName) :
    List (FileName × Node) → List (FileName × Noted (List Script))
  | [] => []
  | (name, node) :: rest =>
    (name, scan (path.join (.ofName name)) (names ++ [name]) node) :: scanEntries path names rest

end

/-- The scripts in a folder. -/
def discoverIn (tree : FileTree) (folder : Path) : Noted (List Script) :=
  match tree.node folder, tree.resolve folder with
  | .ok (.folder entries), .ok names => scan folder names (.folder entries)
  | _, _ => do
    Noted.note .debug notesSource s!"Skipping missing script folder: {folder.text}"
    return []

/-- The scripts in folders, one folder after another. -/
def discover (tree : FileTree) (folders : List Path) : Noted (List Script) :=
  Noted.join (folders.map (discoverIn tree))

/-! ## All scripts -/

/-- The scripts of the program. -/
def builtins : List Script := Script.builtins.filterMap fun b => Script.ofBuiltin? b.name

/-- Whether a script may be listed before another: the group decides, then the name. -/
def precedes (a b : Script) : Bool :=
  a.group < b.group || (a.group == b.group && a.displayName ≤ b.displayName)

/-- The scripts of the program and of folders, by group and name; of equal ones the first found
comes first. -/
def all (tree : FileTree) (folders : List Path) : Noted (List Script) := do
  let found ← discover tree folders
  return (builtins ++ found).mergeSort precedes

/-- A text in lower case. -/
def lowered (s : String) : String := String.ofList (Text.lower s.toList)

/-- Whether a script is meant by a query in lower case: by its id, its name or its file name. -/
def answers (wanted : String) (script : Script) : Bool :=
  script.id == wanted || lowered script.displayName == wanted ||
    match script.origin with
    | .builtin name => lowered name == wanted
    | _ => false

/-- The script that a query means: the file at that path, or the first script in the list that
answers to it. -/
def find (tree : FileTree) (folders : List Path) (query : String) :
    Noted (Except Failure Script) :=
  let path : Path := query
  -- a file counts before any script, whatever it is called
  if tree.isFile path then
    match Script.load tree path with
    | .error e => pure (.error e)
    | .ok script => { value := .ok script, notes := script.notes }
  else do
    let scripts ← all tree folders
    match scripts.find? (answers (lowered query)) with
    | some script => return .ok script
    | none => return .error (.of s!"No script found matching '{query}'")

end FeatureTransform.Catalog
