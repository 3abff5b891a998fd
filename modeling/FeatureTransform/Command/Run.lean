import FeatureTransform.Catalog
import FeatureTransform.Command.Folders
import FeatureTransform.Lua.Host
import FeatureTransform.Transform

/-!
# The run command

It runs a script over the features of a file: the values of the parameters are bound, a session is
built, every feature is sent through it, and what comes back is shown or written as a collection of
features. Without the wish to stop at a failure, failures are counted and told at the end.
-/

namespace FeatureTransform.Command

/-- Who takes the notes on running scripts. -/
def runNotes : String := "luaproc::cli::commands::run"

/-! ## What the script is given -/

/-- The reference system of that name. -/
def systemOf (name : String) : Step ReferenceSystem :=
  match ReferenceSystem.parse? name with
  | some system => return system
  | none => throw (.of s!"Invalid reference system '{name}'")

/-- The name and the value in an assignment of the user. -/
def assignmentOf (text : String) : Step (String × String) :=
  match Text.splitOnce? '=' text.toList with
  | some (name, value) => return (String.ofList (Text.trim name), String.ofList value)
  | none => throw (.of s!"Parameter '{text}' must be written as name=value")

/-- The bindings with a value of the user. -/
def bindValue (script : Script) (bindings : Bindings) (text : String) : Step Bindings := do
  let (name, value) ← assignmentOf text
  match script.parameter? name with
  | none => throw (.of s!"'{script.displayName}' has no parameter named '{name}'")
  | some p =>
    -- it is bound all the same, and passed over when the program is composed
    if p.kind.bindingStyle = .passThrough then
      Step.note .warn runNotes s!"Parameter '{name}' ({p.kind.keyword}) is not passed to the script"
    return bindings.insert name (.text value)

/-- Whether a script misses the value of a parameter. -/
def isMissed (bindings : Bindings) (p : Parameter) : Bool :=
  let isBound :=
    match bindings.get? p.name with
    | none | some .null => false
    | some _ => true
  !p.optional && !isBound && p.kind.bindingStyle ≠ .passThrough

/-- The values of the parameters: those of their declarations, then those of the user. -/
def bindingsFor (script : Script) (values : List String) : Step Bindings := do
  let bindings ← values.foldlM (bindValue script) (Bindings.ofDefaults script)
  (script.parameters.filter (isMissed bindings)).forM fun p =>
    Step.note .warn runNotes s!"Parameter '{p.name}' has no value and is bound to nil"
  return bindings

/-! ## What the script works on -/

/-- The features in a file. -/
def recordsIn (path : Path) : Step (List Record) := do
  match (← Step.tree).readText path with
  | .error e => throw { causes := [s!"Failed to read input file: {path.text}", e.message] }
  | .ok text =>
    match Record.ofText text with
    | .error e => throw { causes := [s!"Failed to parse GeoJSON: {path.text}", e.message] }
    | .ok records => return records

/-- The fields of the results: those of the input, and further ones of the user. -/
def schemaFor (records : List Record) (specs : List String) : Step Schema :=
  specs.foldlM (fun schema spec =>
    match Field.parse? spec with
    | some field => return schema.insert field
    | none => throw (.of
        s!"Field '{spec}' must be written as name:type (string, integer, double, boolean)"))
    (.infer records)

/-! ## The session -/

/-- Who takes the notes on building sessions. -/
def sessionNotes : String := "luaproc_cli::script::environment"

/-- Who takes the notes on what scripts tell. -/
def scriptNotes : String := "luaproc::script"

/-- Takes a note of each message. -/
def noteMessages (messages : List Feedback) : Step Unit :=
  messages.forM fun message => Step.note .debug scriptNotes message.display

/-- The messages in a state, in order. -/
def messagesOf (store : Lua.Store) : List Feedback := (Lua.takeFeedback store).1

/-- A session with the script, and the state it starts from. -/
def sessionFor (script : Script) (bindings : Bindings) (target : ReferenceSystem) :
    Step (Session Lua.Store Lua.Value × Lua.Store) := do
  Step.note .debug sessionNotes s!"Building execution environment for '{script.id}'"
  (Program.passedOver (Program.steps script bindings)).forM fun p =>
    Step.note .debug sessionNotes s!"Parameter '{p.name}' ({p.kind.keyword}) is not bound directly"
  let (built, store) := Session.build script bindings target Lua.engine .start
  noteMessages (messagesOf store)
  match built with
  | .error e => throw { causes := [s!"Failed to prepare '{script.displayName}'", e.message] }
  | .ok session => return (session, store)

/-! ## The run -/

/-- Who takes the notes on records. -/
def recordNotes : String := "luaproc_cli::script::executor"

/-- Takes the notes on outcomes: what the script tells, and the failures. The first one is that of
the record at a position, before which the state held some messages. -/
def noteOutcomes (scriptId : String) : (index told : Nat) → List (Outcome × Lua.Store) → Step Unit
  | _, _, [] => return
  | index, told, (outcome, store) :: rest => do
    noteMessages ((messagesOf store).drop told)
    match outcome with
    | .ok _ => pure ()
    | .error e =>
      Step.note .warn recordNotes s!"Record {index} failed in '{scriptId}': {e.message}"
    noteOutcomes scriptId (index + 1) store.feedback.length rest

/-- The account of all records, and the state after them. -/
def runThrough (transformer : Transformer Lua.Store Lua.Value) (records : List Record)
    (store : Lua.Store) : Step (Report × Lua.Store) := do
  let outcomes := transformer.outcomes records store
  noteOutcomes transformer.session.scriptId 0 store.feedback.length outcomes
  let report := Report.ofOutcomes (outcomes.map Prod.fst)
  Step.note .debug recordNotes <|
    s!"Processed {report.processed} records: {report.outputs.length} outputs, "
      ++ s!"{report.filtered} filtered, {report.failures.length} failed"
  return (report, (outcomes.getLast?.map Prod.snd).getD store)

/-- The line about a message. -/
def messageLine (message : Feedback) : String :=
  match message.kind with
  | .info => "info: " ++ message.text
  | .warning => "warning: " ++ message.text
  | .error => "error: " ++ message.text

/-- Says what the script has told. -/
def sayMessages (store : Lua.Store) : Step Unit :=
  (messagesOf store).forM fun message => Step.say (messageLine message)

/-- The account of all records. The first failure ends the run if so wished. -/
def reportFor (transformer : Transformer Lua.Store Lua.Value) (stopsAtFailure : Bool)
    (records : List Record) (store : Lua.Store) : Step Report := do
  if stopsAtFailure then
    let (result, after) := transformer.runStrictly records store
    noteMessages ((messagesOf after).drop store.feedback.length)
    sayMessages after
    match result with
    | .error stop => throw stop.failure
    | .ok report => return report
  else
    let (report, after) ← runThrough transformer records store
    sayMessages after
    return report

/-! ## The results -/

/-- The numbers of an account. -/
def Tally.of (report : Report) : Tally where
  processed := report.processed
  written := report.outputs.length
  filtered := report.filtered
  failed := report.failures.length

/-- Shows the results, or writes them into a file. -/
def deliver (output? : Option Path) (report : Report) : Step Unit := do
  let text := (Record.collection report.outputs).writeIndented
  match output? with
  | none => Step.showLine text
  | some path =>
    match (← Step.tree).writeText path text with
    | .error e => throw { causes := [s!"Failed to write output file: {path.text}", e.message] }
    | .ok tree =>
      Step.write path text tree
      Step.say s!"Results saved to: {path.text}"

/-- Says how the run went; failures make the command fail. -/
def conclude (report : Report) : Step Unit := do
  Step.remark (.tally (.of report))
  if !report.isClean then
    report.failures.forM fun (index, e) => Step.say s!"  feature {index}: {e.message}"
    throw (.of s!"{report.failures.length} features failed")

/-- The script that is meant, if it may be run. -/
def runnableScript (folders : List Path) (query : String) : Step Script := do
  let script ← Step.ofNotedResult (Catalog.find (← Step.tree) folders query)
  match script.error? with
  | some error => throw (.of s!"'{script.displayName}' cannot be run.\n{error}")
  | none => return script

/-- Runs a script. -/
def runScript (places : Places) (general : General) (job : Job) : Step Unit := do
  let script ← runnableScript (← foldersFor places general) job.query
  let source ← systemOf job.source
  let target ← systemOf job.target
  let bindings ← bindingsFor script job.values
  let records ← recordsIn job.input
  let schema ← schemaFor records job.fields
  Step.note .debug runNotes <|
    s!"Read {records.length} features with {schema.fields.length} fields from {job.input.text}"
  let (session, store) ← sessionFor script bindings target
  let transformer := Transformer.of session source schema
  let report ← reportFor transformer job.stopsAtFailure records store
  deliver job.output? report
  conclude report

end FeatureTransform.Command
