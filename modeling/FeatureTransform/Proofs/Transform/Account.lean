import FeatureTransform.Transform
import Mathlib.Data.List.Basic

/-!
# The account of a run

A run threads the state of the engine through the records and files every outcome in one of three
places. What the account says is read off the outcomes alone:

* **filing** — `Report.Accounts` is what a report must say of a list of outcomes, and the loop that
  files them one by one reaches it from the empty report;
* **stepping** — the outcome at a position is what its record gives in the state that the records
  before it left behind;
* **splitting** — a run over two lists is the run over the first, then the run over the second from
  where the first left the engine, with the positions shifted;
* **independence** — when the engine answers by the payload alone, taking one record out of a run
  takes out its own outcome and nothing else.
-/

namespace FeatureTransform

/-! ## What outcomes hold -/

namespace Outcome

/-- The records that came back. -/
def records : Outcome → List Record
  | .ok records => records
  | .error _ => []

/-- Whether any record came back. -/
def isFruitful (outcome : Outcome) : Bool := !(records outcome).isEmpty

/-- Whether the record came through and gave nothing. -/
def isBarren : Outcome → Bool
  | .ok [] => true
  | _ => false

/-- Whether the record failed. -/
def isFailure : Outcome → Bool
  | .ok _ => false
  | .error _ => true

end Outcome

namespace Report

/-- The failures among outcomes, each with its position when the first stands at a given one. -/
def failuresFrom : Nat → List Outcome → List (Nat × RecordError)
  | _, [] => []
  | index, .ok _ :: rest => failuresFrom (index + 1) rest
  | index, .error e :: rest => (index, e) :: failuresFrom (index + 1) rest

/-- Failures of two lists are filed one after the other, those of the second from where the first
has ended. -/
theorem failuresFrom_append (index : Nat) (first second : List Outcome) :
    failuresFrom index (first ++ second) =
      failuresFrom index first ++ failuresFrom (index + first.length) second := by
  induction first generalizing index with
  | nil => rfl
  | cons outcome rest ih =>
    have hshift : index + 1 + rest.length = index + (rest.length + 1) := by omega
    cases outcome with
    | ok records => simp [failuresFrom, ih, hshift]
    | error e => simp [failuresFrom, ih, hshift]

/-- Moving the first position moves every position. -/
theorem failuresFrom_add (index n : Nat) (outcomes : List Outcome) :
    failuresFrom (index + n) outcomes =
      (failuresFrom index outcomes).map fun (i, e) => (i + n, e) := by
  induction outcomes generalizing index with
  | nil => rfl
  | cons outcome rest ih =>
    have hnext : index + n + 1 = index + 1 + n := by omega
    cases outcome with
    | ok records => simp [failuresFrom, hnext, ih]
    | error e => simp [failuresFrom, hnext, ih]

/-- **Each failure is filed under its own position**, counted from where the filing began. -/
theorem mem_failuresFrom {index i : Nat} {e : RecordError} {outcomes : List Outcome} :
    (i, e) ∈ failuresFrom index outcomes ↔
      ∃ k, i = index + k ∧ outcomes[k]? = some (.error e) := by
  induction outcomes generalizing index with
  | nil => simp [failuresFrom]
  | cons outcome rest ih =>
    -- the head is the position 0 of the list, the rest are the positions after it
    have hsplit : (∃ k, i = index + k ∧ (outcome :: rest)[k]? = some (.error e)) ↔
        (i = index ∧ outcome = .error e) ∨
          ∃ k, i = index + 1 + k ∧ rest[k]? = some (.error e) := by
      constructor
      · rintro ⟨_ | k, rfl, hk⟩
        · exact .inl ⟨by omega, by simpa using hk⟩
        · exact .inr ⟨k, by omega, by simpa using hk⟩
      · rintro (⟨rfl, rfl⟩ | ⟨k, rfl, hk⟩)
        · exact ⟨0, by simp, by simp⟩
        · exact ⟨k + 1, by omega, by simpa using hk⟩
    rw [hsplit, ← ih]
    cases outcome with
    | ok records => simp [failuresFrom]
    | error cause => simp [failuresFrom, eq_comm]

theorem le_of_mem_failuresFrom {index : Nat} {failure : Nat × RecordError}
    {outcomes : List Outcome} (h : failure ∈ failuresFrom index outcomes) :
    index ≤ failure.1 := by
  obtain ⟨k, hk, -⟩ := mem_failuresFrom.mp (show (failure.1, failure.2) ∈ _ from h)
  omega

/-- Failures are filed in the order of their positions, and no position twice. -/
theorem pairwise_failuresFrom (index : Nat) (outcomes : List Outcome) :
    (failuresFrom index outcomes).Pairwise fun a b => a.1 < b.1 := by
  induction outcomes generalizing index with
  | nil => exact .nil
  | cons outcome rest ih =>
    cases outcome with
    | ok records => exact ih (index + 1)
    | error e =>
      refine .cons (fun failure hf => ?_) (ih (index + 1))
      exact le_of_mem_failuresFrom hf

/-- As many failures are filed as there are. -/
theorem length_failuresFrom (index : Nat) (outcomes : List Outcome) :
    (failuresFrom index outcomes).length = outcomes.countP Outcome.isFailure := by
  induction outcomes generalizing index with
  | nil => rfl
  | cons outcome rest ih =>
    rw [List.countP_cons]
    cases outcome with
    | ok records => simp [failuresFrom, ih, Outcome.isFailure]
    | error e => simp [failuresFrom, ih, Outcome.isFailure]

/-! ## The loop that files outcomes -/

/-- **One turn.** What filing one outcome adds to each of the four accounts: its records, its
failure, one to the count of all, and one to the count of those without a result. -/
theorem add_eq (report : Report) (index : Nat) (outcome : Outcome) :
    report.add index outcome =
      { outputs := report.outputs ++ Outcome.records outcome
        failures := report.failures ++ failuresFrom index [outcome]
        processed := report.processed + 1
        filtered := report.filtered + (Outcome.isBarren outcome).toNat } := by
  match outcome with
  | .ok [] => simp [add, Outcome.records, failuresFrom, Outcome.isBarren]
  | .ok (_ :: _) => simp [add, Outcome.records, failuresFrom, Outcome.isBarren]
  | .error _ => simp [add, Outcome.records, failuresFrom, Outcome.isBarren]

/-- **All turns.** What filing outcomes from a position on adds to each of the four accounts. The
induction is on the outcomes; the report and the position change from one to the next. -/
theorem addFrom_eq (report : Report) (index : Nat) (outcomes : List Outcome) :
    report.addFrom index outcomes =
      { outputs := report.outputs ++ outcomes.flatMap Outcome.records
        failures := report.failures ++ failuresFrom index outcomes
        processed := report.processed + outcomes.length
        filtered := report.filtered + outcomes.countP Outcome.isBarren } := by
  induction outcomes generalizing report index with
  | nil => simp [addFrom, failuresFrom]
  | cons outcome rest ih =>
    have hfailures : failuresFrom index (outcome :: rest) =
        failuresFrom index [outcome] ++ failuresFrom (index + 1) rest :=
      failuresFrom_append index [outcome] rest
    have hbarren : (outcome :: rest).countP Outcome.isBarren =
        (Outcome.isBarren outcome).toNat + rest.countP Outcome.isBarren := by
      rw [List.countP_cons]
      cases Outcome.isBarren outcome <;> simp [Nat.add_comm]
    rw [addFrom, ih, add_eq, hfailures, hbarren]
    simp only [List.flatMap_cons, List.append_assoc, List.length_cons, Report.mk.injEq, true_and]
    omega

theorem ofOutcomes_eq (outcomes : List Outcome) :
    ofOutcomes outcomes =
      { outputs := outcomes.flatMap Outcome.records
        failures := failuresFrom 0 outcomes
        processed := outcomes.length
        filtered := outcomes.countP Outcome.isBarren } := by
  simp [ofOutcomes, addFrom_eq, empty]

/-! ## What a report has to say -/

/-- A report says of outcomes what there is to say. -/
structure Accounts (report : Report) (outcomes : List Outcome) : Prop where
  /-- every record is counted, and once -/
  processed : report.processed = outcomes.length
  /-- every record is filed, and in one place -/
  balanced : report.processed =
    report.filtered + report.failures.length + outcomes.countP Outcome.isFruitful
  /-- nothing that came back is lost, doubled or moved -/
  outputs : report.outputs = outcomes.flatMap Outcome.records
  /-- the failures are told in the order in which they happened -/
  increasing : report.failures.Pairwise fun a b => a.1 < b.1
  /-- a failure has the position of a record -/
  below : ∀ failure ∈ report.failures, failure.1 < report.processed
  /-- the failures are those of the outcomes, each at its own position -/
  failures : ∀ i e, (i, e) ∈ report.failures ↔ outcomes[i]? = some (.error e)

/-- **Three ways.** Each outcome is barren, a failure or fruitful, and only one of these. So the
counts add up. -/
theorem length_eq_countP (outcomes : List Outcome) :
    outcomes.length = outcomes.countP Outcome.isBarren + outcomes.countP Outcome.isFailure
      + outcomes.countP Outcome.isFruitful := by
  induction outcomes with
  | nil => rfl
  | cons outcome rest ih =>
    simp only [List.length_cons, List.countP_cons, ih]
    match outcome with
    | .ok [] =>
      simp [Outcome.isBarren, Outcome.isFailure, Outcome.isFruitful, Outcome.records]
      omega
    | .ok (_ :: _) =>
      simp [Outcome.isBarren, Outcome.isFailure, Outcome.isFruitful, Outcome.records]
      omega
    | .error _ =>
      simp [Outcome.isBarren, Outcome.isFailure, Outcome.isFruitful, Outcome.records]
      omega

theorem accounts_ofOutcomes (outcomes : List Outcome) :
    (ofOutcomes outcomes).Accounts outcomes := by
  rw [ofOutcomes_eq]
  have hmem : ∀ i e, (i, e) ∈ failuresFrom 0 outcomes ↔ outcomes[i]? = some (.error e) := by
    intro i e
    rw [mem_failuresFrom]
    simp
  refine ⟨rfl, ?_, rfl, pairwise_failuresFrom 0 outcomes, ?_, hmem⟩
  · simpa [length_failuresFrom] using length_eq_countP outcomes
  · rintro ⟨i, e⟩ hf
    have hi := (hmem i e).mp hf
    exact (List.getElem?_eq_some_iff.mp hi).1

/-- The account of one run followed by the account of another: the positions of the second are
shifted by the number of records of the first. -/
def append (first second : Report) : Report where
  outputs := first.outputs ++ second.outputs
  failures := first.failures ++ second.failures.map fun (i, e) => (i + first.processed, e)
  processed := first.processed + second.processed
  filtered := first.filtered + second.filtered

theorem ofOutcomes_append (first second : List Outcome) :
    ofOutcomes (first ++ second) = (ofOutcomes first).append (ofOutcomes second) := by
  have hfailures : failuresFrom 0 (first ++ second) =
      failuresFrom 0 first ++ (failuresFrom 0 second).map fun (i, e) => (i + first.length, e) := by
    rw [failuresFrom_append, failuresFrom_add]
  simp [ofOutcomes_eq, append, hfailures]

end Report

/-! ## The run -/

namespace Transformer

variable {σ ν : Type}

/-- The state that records leave behind. -/
def after (transformer : Transformer σ ν) : List Record → σ → σ
  | [], state => state
  | record :: rest, state => transformer.after rest (transformer.execute record state).2

/-- The outcomes without the states. -/
def results (transformer : Transformer σ ν) (records : List Record) (state : σ) : List Outcome :=
  (transformer.outcomes records state).map Prod.fst

variable (transformer : Transformer σ ν)

@[simp] theorem results_nil (state : σ) : transformer.results [] state = [] := rfl

@[simp] theorem results_cons (record : Record) (rest : List Record) (state : σ) :
    transformer.results (record :: rest) state =
      (transformer.execute record state).1
        :: transformer.results rest (transformer.execute record state).2 := rfl

@[simp] theorem length_results (records : List Record) (state : σ) :
    (transformer.results records state).length = records.length := by
  induction records generalizing state with
  | nil => rfl
  | cons record rest ih => simp [ih]

/-- **A run files the outcomes.** The loop that executes and files at once gives the account of the
outcomes, and leaves the engine where they leave it. From here on, outcomes can be looked at without
the report. -/
theorem runFrom_eq (index : Nat) (report : Report) (records : List Record) (state : σ) :
    transformer.runFrom index report records state =
      (report.addFrom index (transformer.results records state),
        transformer.after records state) := by
  induction records generalizing index report state with
  | nil => rfl
  | cons record rest ih => simp [runFrom, Report.addFrom, after, ih]

theorem run_eq (records : List Record) (state : σ) :
    transformer.run records state =
      (.ofOutcomes (transformer.results records state), transformer.after records state) :=
  transformer.runFrom_eq 0 .empty records state

theorem after_append (xs ys : List Record) (state : σ) :
    transformer.after (xs ++ ys) state = transformer.after ys (transformer.after xs state) := by
  induction xs generalizing state with
  | nil => rfl
  | cons record rest ih => simp [after, ih]

theorem results_append (xs ys : List Record) (state : σ) :
    transformer.results (xs ++ ys) state =
      transformer.results xs state ++ transformer.results ys (transformer.after xs state) := by
  induction xs generalizing state with
  | nil => rfl
  | cons record rest ih => simp [after, ih]

/-- **Each outcome is its record's own**, in the state that the records before it left behind. The
records behind it have no part in it. -/
theorem results_getElem? (records : List Record) (state : σ) (i : Nat) :
    (transformer.results records state)[i]? =
      records[i]?.map fun record =>
        (transformer.execute record (transformer.after (records.take i) state)).1 := by
  induction records generalizing state i with
  | nil => rfl
  | cons record rest ih =>
    cases i with
    | zero => rfl
    | succ i => simp [after, ih]

/-- **Splitting.** A run over two lists is one run after the other, with the failures of the second
moved behind the records of the first. -/
theorem run_append (xs ys : List Record) (state : σ) :
    transformer.run (xs ++ ys) state =
      let (first, reached) := transformer.run xs state
      let (second, left) := transformer.run ys reached
      (first.append second, left) := by
  simp [run_eq, results_append, after_append, Report.ofOutcomes_append]

/-! ## Engines that answer by the payload -/

/-- The answers of the engine to the dispatcher do not depend on what it was asked before. -/
def AnswersByPayload (transformer : Transformer σ ν) : Prop :=
  ∀ text before before',
    (transformer.session.engine.call transformer.session.dispatcher [text] before).1 =
      (transformer.session.engine.call transformer.session.dispatcher [text] before').1

theorem execute_fst_eq {transformer : Transformer σ ν} (h : transformer.AnswersByPayload)
    (record : Record) (state state' : σ) :
    (transformer.execute record state).1 = (transformer.execute record state').1 := by
  unfold execute
  cases transformer.exchange.exportText record with
  | error e => rfl
  | ok text =>
    have hanswer := h text state state'
    rcases hleft : transformer.session.engine.call transformer.session.dispatcher [text] state
      with ⟨answer, left⟩
    rcases hright : transformer.session.engine.call transformer.session.dispatcher [text] state'
      with ⟨answer', left'⟩
    rw [hleft, hright] at hanswer
    obtain rfl : answer = answer' := hanswer
    simp only [hleft, hright]
    match answer with
    | .error _ => rfl
    | .ok none => rfl
    | .ok (some _) => rfl

/-- Then a record has one outcome, whenever it is its turn, so that the outcomes can be taken record
by record. -/
theorem results_eq_map {transformer : Transformer σ ν} (h : transformer.AnswersByPayload)
    (records : List Record) (state fixed : σ) :
    transformer.results records state =
      records.map fun record => (transformer.execute record fixed).1 := by
  induction records generalizing state with
  | nil => rfl
  | cons record rest ih =>
    rw [results_cons, ih, List.map_cons, execute_fst_eq h record state fixed]

/-- **Taking one record out** takes out its own outcome and no other. -/
theorem eraseIdx_results {transformer : Transformer σ ν} (h : transformer.AnswersByPayload)
    (xs ys : List Record) (record : Record) (state : σ) :
    (transformer.results (xs ++ record :: ys) state).eraseIdx xs.length =
      transformer.results (xs ++ ys) state := by
  rw [results_eq_map h _ state state, results_eq_map h _ state state]
  rw [List.map_append, List.eraseIdx_append_of_length_le (by simp)]
  simp

/-- A failing record adds nothing to what comes back, nor to what gives nothing; it is only counted
and filed. -/
theorem run_fst_eq_of_failure {transformer : Transformer σ ν} (h : transformer.AnswersByPayload)
    (xs ys : List Record) {bad : Record} {e : RecordError} {state : σ}
    (hbad : (transformer.execute bad state).1 = .error e) :
    (transformer.run (xs ++ bad :: ys) state).1.outputs =
        (transformer.run (xs ++ ys) state).1.outputs ∧
      (transformer.run (xs ++ bad :: ys) state).1.filtered =
        (transformer.run (xs ++ ys) state).1.filtered := by
  simp only [run_eq, Report.ofOutcomes_eq, results_eq_map h _ state state, List.map_append,
    List.map_cons, hbad]
  constructor
  · simp [Outcome.records]
  · simp [Outcome.isBarren]

/-- **Run accounting.** The report of a run accounts for its outcomes, each of which is the own
outcome of its record in the state it found; a run over two lists is one run after the other; and a
failing record changes the outcome of no other record, if the engine answers by the payload. That
condition is needed for the last part only: a script may keep what it has seen, and then the records
behind do depend on those in front. -/
theorem run_accounts (xs ys : List Record) (state : σ) :
    (transformer.run xs state).1.processed = xs.length ∧
    (transformer.run xs state).1.Accounts (transformer.results xs state) ∧
    (∀ i, (transformer.results xs state)[i]? =
      xs[i]?.map fun record =>
        (transformer.execute record (transformer.run (xs.take i) state).2).1) ∧
    (transformer.run (xs ++ ys) state =
      let (first, reached) := transformer.run xs state
      let (second, left) := transformer.run ys reached
      (first.append second, left)) ∧
    (transformer.AnswersByPayload →
      ∀ bad e, (transformer.execute bad state).1 = .error e →
        (transformer.results (xs ++ bad :: ys) state)[xs.length]? = some (.error e) ∧
        (transformer.results (xs ++ bad :: ys) state).eraseIdx xs.length =
          transformer.results (xs ++ ys) state ∧
        (transformer.run (xs ++ bad :: ys) state).1.outputs =
          (transformer.run (xs ++ ys) state).1.outputs ∧
        (transformer.run (xs ++ bad :: ys) state).1.filtered =
          (transformer.run (xs ++ ys) state).1.filtered) := by
  have haccounts : (transformer.run xs state).1.Accounts (transformer.results xs state) := by
    rw [run_eq]
    exact Report.accounts_ofOutcomes _
  refine ⟨?_, haccounts, ?_, transformer.run_append xs ys state, ?_⟩
  · rw [haccounts.processed, length_results]
  · intro i
    rw [results_getElem?, run_eq]
  · intro h bad e hbad
    refine ⟨?_, eraseIdx_results h xs ys bad state, run_fst_eq_of_failure h xs ys hbad⟩
    have hat : (xs ++ bad :: ys)[xs.length]? = some bad := by simp
    rw [results_getElem?, hat, Option.map_some, execute_fst_eq h bad _ state, hbad]

/-- An engine that counts its calls and always says nothing. -/
def taciturn : Engine Nat Unit where
  evaluate _ calls := (.ok (), calls)
  global _ calls := (.ok (some ()), calls)
  isCallable _ calls := (true, calls)
  call _ _ calls := (.ok none, calls + 1)

/-- A transformer between two systems without a way from one to the other. -/
def wayless : Transformer Nat Unit where
  session := { engine := taciturn, dispatcher := (), target := ⟨"EPSG:2"⟩, scriptId := "s" }
  exchange := { source := ⟨"EPSG:1"⟩, target := ⟨"EPSG:2"⟩, schema := .empty }

/-- Between two records without a geometry, one with a geometry fails and the others do not. -/
theorem run_accounts_wayless :
    let blank : Record := { id? := none, geometry := none, attributes := [] }
    let placed : Record := { blank with geometry := some (.object []) }
    (wayless.results ([blank] ++ placed :: [blank]) 0).eraseIdx 1 =
      wayless.results ([blank] ++ [blank]) 0 :=
  have h : wayless.AnswersByPayload := fun _ _ _ => rfl
  ((wayless.run_accounts _ _ 0).2.2.2.2 h _ (.reprojection ⟨⟨"EPSG:1"⟩, ⟨"EPSG:2"⟩⟩) rfl).2.1

end Transformer

end FeatureTransform
