import FeatureTransform.Feature.Exchange
import FeatureTransform.Session

/-!
# Transforming records

A transformer sends each record through its session. A run takes all records in order, whatever
becomes of them, and keeps account: how many came, which failed and why, how many gave nothing, and
what the others gave. A strict run stops at the first failure.
-/

namespace FeatureTransform

/-- A session with the terms on which records are exchanged. -/
structure Transformer (σ ν : Type) where
  /-- the session -/
  session : Session σ ν
  /-- the terms -/
  exchange : Exchange

/-- What becomes of a record. -/
abbrev Outcome := Except RecordError (List Record)

/-- The account of a run. -/
structure Report where
  /-- the records that came back, in order -/
  outputs : List Record
  /-- the positions of the records that failed, each with the reason -/
  failures : List (Nat × RecordError)
  /-- how many records came -/
  processed : Nat
  /-- how many records gave nothing -/
  filtered : Nat

namespace Report

/-- The account of no records. -/
def empty : Report := { outputs := [], failures := [], processed := 0, filtered := 0 }

/-- Whether no record failed. -/
def isClean (report : Report) : Bool := report.failures.isEmpty

/-- The account after the record at a position, in a run that takes all records: the record is
counted first, then filed by its outcome. -/
def add (report : Report) (index : Nat) : Outcome → Report
  | .ok [] =>
    { report with processed := report.processed + 1, filtered := report.filtered + 1 }
  | .ok outputs =>
    { report with processed := report.processed + 1, outputs := report.outputs ++ outputs }
  | .error e =>
    { report with
      processed := report.processed + 1
      failures := report.failures ++ [(index, e)] }

/-- The account after the outcomes of the records from a position on. -/
def addFrom (report : Report) : Nat → List Outcome → Report
  | _, [] => report
  | index, outcome :: rest => (report.add index outcome).addFrom (index + 1) rest

/-- The account of the outcomes of all records. -/
def ofOutcomes (outcomes : List Outcome) : Report := empty.addFrom 0 outcomes

/-- The account after what a record gave, in a run that stops at failures: only what came through
is counted, and nothing may have come. -/
def addOutputs (report : Report) (outputs : List Record) : Report :=
  { report with
    processed := report.processed + 1
    filtered := if outputs.isEmpty then report.filtered + 1 else report.filtered
    outputs := report.outputs ++ outputs }

end Report

namespace Transformer

variable {σ ν : Type}

/-- The transformer of a session for records of a system, whose results are fitted to a schema. -/
def of (session : Session σ ν) (source : ReferenceSystem) (schema : Schema) : Transformer σ ν :=
  { session := session
    exchange := { source := source, target := session.target, schema := schema } }

/-- What becomes of one record, and the state in which the engine is left. -/
def execute (transformer : Transformer σ ν) (record : Record) (state : σ) : Outcome × σ :=
  match transformer.exchange.exportText record with
  | .error e => (.error e, state)
  | .ok text =>
    let session := transformer.session
    match session.engine.call session.dispatcher [text] state with
    | (.error e, state) => (.error (.script e.message), state)
    | (.ok none, state) => (.ok [], state)
    | (.ok (some result), state) => (transformer.exchange.decode result, state)

/-- What becomes of each record, one after another, and the state after it. -/
def outcomes (transformer : Transformer σ ν) : List Record → σ → List (Outcome × σ)
  | [], _ => []
  | record :: rest, state =>
    let (outcome, state) := transformer.execute record state
    (outcome, state) :: transformer.outcomes rest state

/-- The account after the records from a position on. -/
def runFrom (transformer : Transformer σ ν) : Nat → Report → List Record → σ → Report × σ
  | _, report, [], state => (report, state)
  | index, report, record :: rest, state =>
    let (outcome, state) := transformer.execute record state
    transformer.runFrom (index + 1) (report.add index outcome) rest state

/-- The account of all records, and the state in which they leave the engine. -/
def run (transformer : Transformer σ ν) (records : List Record) (state : σ) : Report × σ :=
  transformer.runFrom 0 .empty records state

/-- The first failure of a strict run. -/
structure Stop where
  /-- the position of the record -/
  index : Nat
  /-- why it failed -/
  cause : RecordError

/-- The failure that a strict run ends in: the position, and under it the reason. -/
def Stop.failure (stop : Stop) : Failure where
  causes := [s!"Feature {stop.index} failed", stop.cause.message]

/-- The account after the records from a position on, or the first failure. -/
def runStrictlyFrom (transformer : Transformer σ ν) : Nat → Report → List Record → σ →
    Except Stop Report × σ
  | _, report, [], state => (.ok report, state)
  | index, report, record :: rest, state =>
    match transformer.execute record state with
    -- the account so far is given up
    | (.error e, state) => (.error ⟨index, e⟩, state)
    | (.ok outputs, state) =>
      transformer.runStrictlyFrom (index + 1) (report.addOutputs outputs) rest state

/-- The account of all records if none fails, else the first failure; later records are not
executed. -/
def runStrictly (transformer : Transformer σ ν) (records : List Record) (state : σ) :
    Except Stop Report × σ :=
  transformer.runStrictlyFrom 0 .empty records state

/-- The same transformer over an engine that keeps what it was asked to do. -/
def recorded (transformer : Transformer σ ν) : Transformer (σ × List (Request ν)) ν where
  session := { transformer.session with engine := transformer.session.engine.recorded }
  exchange := transformer.exchange

end Transformer

end FeatureTransform
