import FeatureTransform.Folder.Tree
import FeatureTransform.Log
import FeatureTransform.Toml.Read

/-!
# Settings

The settings of a user are the folders in which scripts are looked for, in the order of their
choice. They are kept in a TOML file. Folders are compared as paths, so that another spelling of a
folder in the list changes nothing, and each keeps the spelling it came with.
-/

namespace FeatureTransform

/-- The settings of a user. -/
structure Settings where
  /-- the folders in which scripts are looked for -/
  folders : List Path
deriving DecidableEq, Repr

namespace Settings

/-- The settings of a user who has made none. -/
def empty : Settings := { folders := [] }

/-! ## Changes -/

/-- Whether a folder is in the list. -/
def contains (settings : Settings) (folder : Path) : Bool := settings.folders.any (folder.same ·)

/-- The settings with one folder more at the end, and whether that changes them. -/
def add (settings : Settings) (folder : Path) : Bool × Settings :=
  if settings.contains folder then (false, settings)
  else (true, { folders := settings.folders ++ [folder] })

/-- The settings without a folder, and whether that changes them. -/
def remove (settings : Settings) (folder : Path) : Bool × Settings :=
  let kept := settings.folders.filter fun other => !folder.same other
  (kept.length ≠ settings.folders.length, { folders := kept })

/-- The folders in which scripts are looked for: without any in the settings, a usual one. -/
def resolve (settings : Settings) (usual? : Option Path) : List Path :=
  if settings.folders.isEmpty then usual?.toList else settings.folders

/-! ## The file -/

/-- Who takes the notes on settings. -/
def notesSource : String := "luaproc_cli::config"

/-- The name of the folders in the file. -/
def foldersName : String := "script_folders"

/-- The settings in a TOML value. -/
def ofToml (document : Toml) : Except Failure Settings :=
  match document.entry? foldersName with
  | none => .ok .empty
  | some (.array items) =>
    match items.mapM Toml.text? with
    | some texts => .ok { folders := texts.map Path.ofText }
    | none => .error (.of "TOML parse error: expected a string")
  | some _ => .error (.of "TOML parse error: expected an array")

/-- The settings that a text holds. -/
def ofText (text : String) : Except Failure Settings :=
  match Toml.read text with
  | .error e => .error (.of e.message)
  | .ok document => ofToml document

/-- The text that holds the settings. There is none for a folder whose path is no text. -/
def toText (settings : Settings) : Except Failure String :=
  match settings.folders.mapM Path.text? with
  | some texts => .ok (Toml.writeEntry foldersName texts)
  | none =>
    .error { causes := ["Failed to serialize settings", "path contains invalid UTF-8 characters"] }

/-- The settings in a file; without it there are none. -/
def load (tree : FileTree) (path : Path) : Noted (Except Failure Settings) :=
  if tree.isPresent path then
    match tree.readText path with
    | .error e =>
      return .error { causes := [s!"Failed to read settings file: {path.text}", e.message] }
    | .ok text =>
      return (ofText text).mapError (·.within s!"Failed to parse settings file: {path.text}")
  else do
    Noted.note .debug notesSource s!"Settings file {path.text} not found, using defaults"
    return .ok .empty

/-- The text that holds the settings, and the tree with it in a file, whose folder is made if it is
missing. -/
def save (tree : FileTree) (path : Path) (settings : Settings) :
    Noted (Except Failure (String × FileTree)) :=
  let made : Except Failure FileTree :=
    match path.parent? with
    | none | some ⟨[]⟩ => .ok tree
    | some folder =>
      (tree.makeFolder folder).mapError fun e =>
        { causes := [s!"Failed to create directory: {folder.text}", e.message] }
  match made, settings.toText with
  | .error e, _ | .ok _, .error e => return .error e
  | .ok tree, .ok text =>
    match tree.writeText path text with
    | .error e =>
      return .error { causes := [s!"Failed to write settings file: {path.text}", e.message] }
    | .ok tree => do
      Noted.note .debug notesSource s!"Saved settings to {path.text}"
      return .ok (text, tree)

end Settings

end FeatureTransform
