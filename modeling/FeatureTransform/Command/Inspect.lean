import FeatureTransform.Catalog
import FeatureTransform.Command.Folders
import FeatureTransform.Declaration.Members

/-!
# The inspect command

It shows what a script declares, as text with the help of the script, or as JSON.
-/

namespace FeatureTransform.Command

/-! ## As JSON -/

/-- What a script declares, as JSON. -/
def inspectionDocument (script : Script) : Json :=
  .ofMembers
    [("id", .string script.id),
      ("name", .string script.displayName),
      ("group", .string script.group),
      ("error", .ofText? script.error?),
      ("parameters", .array (script.parameters.map fun p => .ofMembers p.members)),
      ("outputs", .array (script.outputs.map fun o => .ofMembers o.members))]

/-! ## As text -/

/-- A detail with its label, if there is any. -/
def detail (label : String) (text? : Option String) : String :=
  match text? with
  | some text => label ++ ": " ++ text
  | none => ""

/-- The constraints of a kind. -/
def kindDetails : Kind → String
  | .vector geometry => s!"geometry: {geometry.label}"
  | .crs default? => detail "default" default?
  | .field parent? => detail "layer" parent?
  | .string default? => detail "default" default?
  | .file extension? | .fileDestination extension? => detail "extension" extension?
  | .number default? min? max? =>
    let parts := [("default", default?), ("min", min?), ("max", max?)]
    ", ".intercalate <| parts.filterMap fun (label, f?) =>
      f?.map fun f => s!"{label}: {Decimal.plainText f}"
  | .choice choices => "choices: " ++ ", ".intercalate choices
  | .boolean default => "default: " ++ if default then "true" else "false"
  | .layers type => s!"layers: {type.label}"
  | .raster | .extent | .rasterDestination | .vectorDestination => ""

/-- The line about a parameter. -/
def parameterLine (p : Parameter) : String :=
  let optional := if p.optional then " (optional)" else ""
  s!"  {padTo 20 p.name} {p.kind.keyword}{optional} {kindDetails p.kind}"

/-- The line about an output. -/
def outputLine (o : Output) : String := s!"  {padTo 20 o.name} {o.kind.label}"

/-- Lines under a heading, if there are any. -/
def headed (heading : String) (lines : List String) : List String :=
  if lines.isEmpty then [] else "" :: heading :: lines

/-- The lines about a script: its names and what it declares. -/
def summary (script : Script) : List String :=
  let file :=
    match script.sourcePath? with
    | some path => path.text
    | none => "built-in"
  [s!"Name: {script.displayName}", s!"Id: {script.id}"]
    ++ (if script.group = "" then [] else [s!"Group: {script.group}"])
    ++ [s!"File: {file}"]
    ++ (match script.error? with
      | some error => ["", error]
      | none => [])
    ++ headed "Parameters" (script.parameters.map parameterLine)
    ++ headed "Outputs" (script.outputs.map outputLine)

/-- Who takes the notes on showing scripts. -/
def inspectNotes : String := "luaproc::cli::commands::inspect"

/-- Shows the help of a script, if it has any. -/
def showHelp (script : Script) : Step Unit := do
  match Script.loadHelp (← Step.tree) script with
  | .error failure =>
    Step.note .warn inspectNotes s!"Could not load help for '{script.id}': {failure.message}"
  | .ok none => pure ()
  | .ok (some help) =>
    if help.isEmpty then pure ()
    else Step.showAll (headed "Help" [help.format script])

/-- Shows a script. -/
def inspectScript (places : Places) (general : General) (inspection : Inspection) : Step Unit := do
  let folders ← foldersFor places general
  let script ← Step.ofNotedResult (Catalog.find (← Step.tree) folders inspection.query)
  if inspection.asJson then Step.showLine (inspectionDocument script).writeIndented
  else
    Step.showAll (summary script)
    showHelp script
    if inspection.withSource then Step.showAll (headed "Source" [script.text])

end FeatureTransform.Command
