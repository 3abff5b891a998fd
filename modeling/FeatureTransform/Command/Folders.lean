import FeatureTransform.Command.Basic
import FeatureTransform.Command.Console
import FeatureTransform.Settings

/-!
# The folders command

It adds a folder to the settings and takes one out, saves them if they have changed, and shows them.
A folder that is added has to exist and is kept by its full path.
-/

namespace FeatureTransform.Command

/-- Where the program keeps things. -/
structure Places where
  /-- the file of the settings -/
  settings? : Option Path
  /-- the folder for scripts of a user who has chosen none -/
  scripts? : Option Path
deriving DecidableEq, Repr

/-! ## Settings -/

/-- The settings of the user. -/
def loadSettings (places : Places) : Step Settings :=
  match places.settings? with
  | some path => do Step.ofNotedResult (Settings.load (← Step.tree) path)
  | none => do
    Step.note .debug Settings.notesSource "No config directory available, using default settings"
    return .empty

/-- Saves the settings of the user. -/
def saveSettings (places : Places) (settings : Settings) : Step Unit :=
  match places.settings? with
  | some path => do
    let (text, tree) ← Step.ofNotedResult (Settings.save (← Step.tree) path settings)
    Step.write path text tree
  | none => throw (.of "Could not determine config directory")

/-- The folders in which scripts are looked for. -/
def foldersFor (places : Places) (general : General) : Step (List Path) :=
  if general.folders.isEmpty then do
    return (← loadSettings places).resolve places.scripts?
  else return general.folders

/-! ## Changes -/

/-- Adds a folder; tells whether that changes the settings. -/
def addFolder (settings : Settings) (folder : Path) : Step (Bool × Settings) := do
  match (← Step.tree).canonical folder with
  | .error e => throw { causes := [s!"Folder does not exist: {folder.text}", e.message] }
  | .ok full =>
    let (changed, settings) := settings.add full
    if changed then Step.showLine s!"Added {full.text}"
    else Step.showLine s!"{full.text} is already configured"
    return (changed, settings)

/-- Takes a folder out; tells whether that changes the settings. -/
def removeFolder (settings : Settings) (folder : Path) : Step (Bool × Settings) := do
  let full := ((← Step.tree).canonical folder).toOption.getD folder
  let (changed, settings) := settings.remove full
  if changed then Step.showLine s!"Removed {full.text}"
  else Step.showLine s!"{full.text} is not configured"
  return (changed, settings)

/-- A change that is wished for, or none. -/
def changeBy (change : Settings → Path → Step (Bool × Settings)) (folder? : Option Path)
    (settings : Settings) : Step (Bool × Settings) :=
  match folder? with
  | some folder => change settings folder
  | none => return (false, settings)

/-! ## The list -/

/-- The lines about the folders of the settings. -/
def folderLines (tree : FileTree) (places : Places) (settings : Settings) : List String :=
  let folderLine (folder : Path) : String :=
    "  " ++ folder.text ++ if tree.isFolder folder then "" else " (missing)"
  if settings.folders.isEmpty then
    match places.scripts? with
    | some folder => [s!"Script folders: {folder.text} (default)"]
    | none => ["No script folders configured."]
  else "Script folders:" :: settings.folders.map folderLine

/-- Looks after the folders. -/
def lookAfterFolders (places : Places) (change : FolderChange) : Step Unit := do
  let settings ← loadSettings places
  let (added, settings) ← changeBy addFolder change.added? settings
  let (removed, settings) ← changeBy removeFolder change.removed? settings
  if added || removed then saveSettings places settings
  match places.settings? with
  | some path => Step.showLine s!"Settings: {path.text}"
  | none => pure ()
  Step.showAll (folderLines (← Step.tree) places settings)

end FeatureTransform.Command
