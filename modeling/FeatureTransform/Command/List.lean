import FeatureTransform.Catalog
import FeatureTransform.Command.Folders

/-!
# The list command

It lists the scripts under headings: a heading for each group, and below it a line for each script.
The scripts come sorted by group, so that comparing neighbours is enough to find the headings.
-/

namespace FeatureTransform.Command

/-- Where a script comes from, for the user. -/
def originText (script : Script) : String :=
  match script.sourcePath? with
  | some path => path.text
  | none => "built-in"

/-- The heading of a group. -/
def heading (group : String) : String := if group = "" then "(no group)" else group

/-- The line about a script. -/
def scriptLine (script : Script) : String :=
  let flag := if script.isRunnable then "" else "[syntax error] "
  s!"  {padTo 24 script.id} {padTo 32 script.displayName} {flag}{originText script}"

/-- The lines about scripts that follow one of the given group, if any. -/
def listLines : (group? : Option String) → List Script → List String
  | _, [] => []
  | group?, script :: rest =>
    let opening :=
      if group? = some script.group then []
      else (if group?.isSome then [""] else []) ++ [heading script.group]
    opening ++ scriptLine script :: listLines (some script.group) rest

/-- The scripts that are listed. -/
def selected (userOnly : Bool) (scripts : List Script) : List Script :=
  scripts.filter fun script => !userOnly || script.isUserScript

/-- All lines about the selected scripts. -/
def listing (userOnly : Bool) (scripts : List Script) : List String :=
  match selected userOnly scripts with
  | [] => ["No scripts found."]
  | scripts => listLines none scripts

/-- Who takes the notes on listing. -/
def listNotes : String := "luaproc::cli::commands::list"

/-- Lists the scripts. -/
def listScripts (places : Places) (general : General) (userOnly : Bool) : Step Unit := do
  let folders ← foldersFor places general
  let quoted := ", ".intercalate (folders.map Path.quoted)
  Step.note .debug listNotes s!"Scanning script folders: [{quoted}]"
  let scripts ← Step.ofNoted (Catalog.all (← Step.tree) folders)
  Step.showAll (listing userOnly scripts)

end FeatureTransform.Command
