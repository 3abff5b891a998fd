import FeatureTransform.Command.Perform

/-!
# The program

The command line: it takes a picture of the files that a command may look at, lets the command be
performed on the picture, and then shows, says and writes what has come of it. The operations on
files know names as texts only, and so the picture has no others.
-/

namespace FeatureTransform.CommandLine

open Command

/-! ## Places -/

/-- The value of an environment variable, if it is an absolute path. -/
def absolutePath? (name : String) : IO (Option Path) := do
  return ((← IO.getEnv name).map Path.ofText).filter Path.isAbsolute

/-- A folder of the user: the one that a variable names, or the usual one at home. -/
def userFolder? (name usual : String) : IO (Option Path) := do
  match ← absolutePath? name with
  | some folder => return some folder
  | none => return (← absolutePath? "HOME").map (·.join usual)

/-- Where the program keeps things. -/
def findPlaces : IO Places := do
  let settings ← userFolder? "XDG_CONFIG_HOME" ".config"
  let data ← userFolder? "XDG_DATA_HOME" ".local/share"
  return { settings? := settings.map (·.join "luaproc/settings.toml")
           scripts? := data.map (·.join "luaproc/scripts") }

/-! ## The picture -/

/-- Whether the content of a file in a script folder may be looked at. -/
def isOfInterest (name : String) : Bool :=
  Catalog.isScriptName name || name.endsWith Script.helpEnding

/-- What stands at a path, folders with all that is in them. -/
def readFolder : (depth : Nat) → String → IO Node
  | 0, _ => return .folder []
  | depth + 1, path => do
    let here ← IO.currentDir
    let mut entries : List (FileName × Node) := []
    for entry in ← (here / path).readDir do
      if ← entry.path.isDir then
        entries := (entry.fileName, ← readFolder depth entry.path.toString) :: entries
      else if isOfInterest entry.fileName then
        entries := (entry.fileName, .file (← IO.FS.readBinFile entry.path)) :: entries
      else entries := (entry.fileName, .file .empty) :: entries
    return .folder entries

/-- How deep folders are gone through. -/
def maxDepth : Nat := 40

/-- The picture with a node at a path. -/
def place (tree : FileTree) (path : Path) (node : Node) : FileTree :=
  match tree.writeDeep path node with
  | .ok tree => tree
  | .error _ => tree

/-- The spellings of the folders on the way to a path. -/
def waysTo (path : Path) : List Path :=
  let pieces := Text.splitAll Path.slash path.bytes
  (List.range pieces.length).map fun n => ⟨Text.join [Path.slash] (pieces.take n)⟩

/-- The picture with what stands at a path; what is in a folder only if that is wanted. -/
def capture (deep : Bool) (tree : FileTree) (path : Path) : IO FileTree := do
  let here ← IO.currentDir
  let mut tree := tree
  for folder in waysTo path do
    if ← (here / folder.text).isDir then tree := (tree.makeFolder folder).toOption.getD tree
  if ← (here / path.text).isDir then
    if deep then return place tree path (← readFolder maxDepth path.text)
    else return (tree.makeFolder path).toOption.getD tree
  else if ← (here / path.text).pathExists then
    return place tree path (.file (← IO.FS.readBinFile (here / path.text)))
  else return tree

/-- The picture of nothing but the working folder. -/
def emptyPicture : IO FileTree := do
  let here : Path := (← IO.currentDir).toString
  let names := (Text.splitAll Path.slash here.bytes).filter (· ≠ []) |>.map FileName.mk
  let tree : FileTree := { root := .folder [], workingFolder := names }
  return (tree.makeFolder here).toOption.getD tree

/-- The paths that a query may stand for: a script file, and the help beside it. -/
def scriptAt (query : String) : List Path := [query, Path.extend query Script.helpEnding]

/-- The paths that a command names. -/
def pathsOf : Command → List Path
  | .list _ => []
  | .inspect inspection => scriptAt inspection.query
  | .run job => scriptAt job.query ++ job.input :: job.output?.toList
  | .folders change => change.added?.toList ++ change.removed?.toList

/-- Whether a command looks for scripts in folders. -/
def looksForScripts : Command → Bool
  | .folders _ => false
  | _ => true

/-- The picture for a command. -/
def takePicture (places : Places) (general : General) (command : Command) : IO FileTree := do
  let empty ← emptyPicture
  let withSettings ← places.settings?.toList.foldlM (capture false) empty
  let settings :=
    match places.settings?.map fun path => (Settings.load withSettings path).value with
    | some (.ok settings) => settings
    | _ => .empty
  let folders := general.folders ++ settings.resolve places.scripts?
  let withFolders ← folders.foldlM (capture (looksForScripts command)) empty
  (places.settings?.toList ++ pathsOf command).foldlM (capture false) withFolders

/-! ## Effects -/

/-- A time in milliseconds, with two places. -/
def timeText (nanoseconds : Nat) : String :=
  let n := nanoseconds / 10000
  s!"{n / 100}.{n % 100 / 10}{n % 10}"

/-- Writes a text into a file, whose folder is made if it is missing. -/
def writeOut (path : Path) (text : String) : IO Unit := do
  match path.parent? with
  | none | some ⟨[]⟩ => pure ()
  | some folder => IO.FS.createDirAll folder.text
  IO.FS.writeFile path.text text

/-- Performs what a list of arguments asks for. -/
def performAll (arguments : List String) : IO UInt32 := do
  let places ← findPlaces
  let tree ←
    match ofArguments arguments with
    | .ok (general, command) => takePicture places general command
    | .error _ => emptyPicture
  let start ← IO.monoNanosNow
  let result ← IO.lazyPure fun _ => Command.result places tree arguments
  let time := timeText ((← IO.monoNanosNow) - start)
  for (path, text) in result.written do
    writeOut path text
  (← IO.getStdout).putStr result.output
  (← IO.getStderr).putStr (result.commentary time)
  return UInt32.ofNat result.exit

end FeatureTransform.CommandLine

/-- The program. -/
def main (arguments : List String) : IO UInt32 :=
  FeatureTransform.CommandLine.performAll arguments
