import FeatureTransform.Proofs.Transform.Account

/-!
# Strict runs against collecting runs

The two loops count at different moments: a collecting run counts a record before it looks at the
outcome, a strict run after it. They agree all the same, which is shown along the first failure:

* over records that all come through, both loops build the same report, step by step;
* over records of which one fails after others that come through, the strict run ends there, and
  the collecting run files that failure before all others.

That a strict run asks nothing of the engine after the failure is said by an engine that keeps its
requests: what it has been asked then is what the records up to the failing one ask for.
-/

namespace FeatureTransform

/-- **One turn.** For a record that came through, both loops add the same to the report, though one
counts before and the other after. -/
theorem Report.add_ok (report : Report) (index : Nat) (outputs : List Record) :
    report.add index (.ok outputs) = report.addOutputs outputs := by
  cases outputs with
  | nil => simp [add, addOutputs]
  | cons output rest => simp [add, addOutputs]

namespace Transformer

variable {σ ν : Type}

section Loops

variable (transformer : Transformer σ ν)

/-- Whether all records come through when they are executed from a state on. -/
def AllPass (records : List Record) (state : σ) : Prop :=
  ∀ outcome ∈ transformer.results records state, Outcome.isFailure outcome = false

theorem allPass_cons {record : Record} {rest : List Record} {state : σ} :
    transformer.AllPass (record :: rest) state ↔
      (∃ outputs, (transformer.execute record state).1 = .ok outputs) ∧
        transformer.AllPass rest (transformer.execute record state).2 := by
  simp only [AllPass, results_cons, List.forall_mem_cons]
  cases (transformer.execute record state).1 with
  | ok outputs => simp [Outcome.isFailure]
  | error e => simp [Outcome.isFailure]

/-- **First failure.** Either all records come through, or there is a first one that fails.
Everything in front of it comes through. -/
theorem allPass_or_firstFailure (records : List Record) (state : σ) :
    transformer.AllPass records state ∨
      ∃ xs bad ys e, records = xs ++ bad :: ys ∧ transformer.AllPass xs state ∧
        (transformer.execute bad (transformer.after xs state)).1 = .error e := by
  induction records generalizing state with
  | nil => exact .inl (by simp [AllPass])
  | cons record rest ih =>
    cases hrecord : (transformer.execute record state).1 with
    | error e => exact .inr ⟨[], record, rest, e, rfl, by simp [AllPass], hrecord⟩
    | ok outputs =>
      rcases ih (transformer.execute record state).2 with hpass | ⟨xs, bad, ys, e, rfl, hxs, hbad⟩
      · exact .inl ((transformer.allPass_cons).mpr ⟨⟨outputs, hrecord⟩, hpass⟩)
      · refine .inr ⟨record :: xs, bad, ys, e, rfl, ?_, hbad⟩
        exact (transformer.allPass_cons).mpr ⟨⟨outputs, hrecord⟩, hxs⟩

/-- **Passing records.** A strict run goes through records that all come through, with the report
that a collecting run has at the same place. -/
theorem runStrictlyFrom_append {xs : List Record} (ys : List Record) (index : Nat)
    (report : Report) {state : σ} (h : transformer.AllPass xs state) :
    transformer.runStrictlyFrom index report (xs ++ ys) state =
      transformer.runStrictlyFrom (index + xs.length)
        (report.addFrom index (transformer.results xs state)) ys (transformer.after xs state) := by
  induction xs generalizing index report state with
  | nil => rfl
  | cons record rest ih =>
    obtain ⟨⟨outputs, hrecord⟩, hrest⟩ := (transformer.allPass_cons).mp h
    have hexecute : transformer.execute record state =
        (.ok outputs, (transformer.execute record state).2) := Prod.ext hrecord rfl
    have hindex : index + 1 + rest.length = index + (rest.length + 1) := by omega
    rw [List.cons_append, runStrictlyFrom, hexecute]
    simp only
    rw [ih _ _ hrest, results_cons, hrecord, Report.addFrom, Report.add_ok, List.length_cons,
      hindex, after]

/-- **A failing record.** A strict run ends there, and leaves the engine where that record does; the
records behind it are not executed. -/
theorem runStrictlyFrom_cons_of_failure (index : Nat) (report : Report) {bad : Record}
    (rest : List Record) {state : σ} {e : RecordError}
    (h : (transformer.execute bad state).1 = .error e) :
    transformer.runStrictlyFrom index report (bad :: rest) state =
      (.error ⟨index, e⟩, (transformer.execute bad state).2) := by
  have hexecute : transformer.execute bad state =
      (.error e, (transformer.execute bad state).2) := Prod.ext h rfl
  rw [runStrictlyFrom, hexecute]

/-- Where all records come through, no failure is filed. -/
theorem failuresFrom_of_allPass {records : List Record} {state : σ}
    (h : transformer.AllPass records state) (index : Nat) :
    Report.failuresFrom index (transformer.results records state) = [] := by
  rw [← List.length_eq_zero_iff, Report.length_failuresFrom, List.countP_eq_zero]
  intro outcome ho
  simp [h outcome ho]

/-- **Agreement** of the two loops, for every engine. Without failures they end in the same report
and the same state. Else the strict run ends in the first failure of the collecting run, in the
state in which the collecting run leaves the engine after the record that failed. -/
theorem runStrictly_agrees (records : List Record) (state : σ) :
    match (transformer.run records state).1.failures with
    | [] =>
      transformer.runStrictly records state =
        (.ok (transformer.run records state).1, (transformer.run records state).2)
    | (i, e) :: _ =>
      i < records.length ∧
        transformer.runStrictly records state =
          (.error ⟨i, e⟩, (transformer.run (records.take (i + 1)) state).2) := by
  rcases transformer.allPass_or_firstFailure records state with
    hpass | ⟨xs, bad, ys, e, rfl, hxs, hbad⟩
  · have hnone := transformer.failuresFrom_of_allPass hpass 0
    have hstrict := transformer.runStrictlyFrom_append [] 0 .empty hpass
    rw [List.append_nil] at hstrict
    simp only [run_eq, Report.ofOutcomes_eq, hnone]
    rw [runStrictly, hstrict, runStrictlyFrom, ← Report.ofOutcomes, Report.ofOutcomes_eq, hnone]
  · -- the first failure of the collecting run is filed under the number of records in front
    have hfailures : Report.failuresFrom 0 (transformer.results (xs ++ bad :: ys) state) =
        (xs.length, e) :: Report.failuresFrom (xs.length + 1)
          (transformer.results ys (transformer.after (xs ++ [bad]) state)) := by
      rw [results_append, Report.failuresFrom_append, transformer.failuresFrom_of_allPass hxs 0,
        results_cons, hbad, after_append]
      simp [Report.failuresFrom, after]
    have htake : (xs ++ bad :: ys).take (xs.length + 1) = xs ++ [bad] := by
      simp [List.take_append, List.take_of_length_le]
    simp only [run_eq, Report.ofOutcomes_eq, hfailures]
    refine ⟨by simp, ?_⟩
    rw [htake, runStrictly, transformer.runStrictlyFrom_append _ 0 .empty hxs,
      transformer.runStrictlyFrom_cons_of_failure _ _ ys hbad, after_append]
    simp [after]

end Loops

/-! ## What the engine is asked -/

variable (transformer : Transformer σ ν)

/-- What the engine is asked for a record: one call with the text that the record leaves as. -/
def requestsFor (record : Record) : List (Request ν) :=
  match transformer.exchange.exportText record with
  | .error _ => []
  | .ok text => [.call transformer.session.dispatcher [text]]

/-- Keeping the requests changes nothing else. -/
theorem recorded_execute (record : Record) (state : σ) (requests : List (Request ν)) :
    transformer.recorded.execute record (state, requests) =
      ((transformer.execute record state).1, (transformer.execute record state).2,
        requests ++ transformer.requestsFor record) := by
  unfold execute requestsFor
  simp only [recorded]
  cases transformer.exchange.exportText record with
  | error e => simp
  | ok text =>
    simp only [Engine.recorded, Engine.keep]
    rcases transformer.session.engine.call transformer.session.dispatcher [text] state
      with ⟨answer, left⟩
    cases answer with
    | error _ => rfl
    | ok result => cases result <;> rfl

theorem recorded_after (records : List Record) (state : σ) (requests : List (Request ν)) :
    transformer.recorded.after records (state, requests) =
      (transformer.after records state,
        requests ++ records.flatMap transformer.requestsFor) := by
  induction records generalizing state requests with
  | nil => simp [after]
  | cons record rest ih => simp [after, recorded_execute, ih]

theorem recorded_results (records : List Record) (state : σ) (requests : List (Request ν)) :
    transformer.recorded.results records (state, requests) =
      transformer.results records state := by
  induction records generalizing state requests with
  | nil => rfl
  | cons record rest ih => simp [recorded_execute, ih]

/-- A collecting run makes the requests of all its records, in order, and is otherwise the run over
the plain engine: keeping the requests has no effect on the answers. -/
theorem recorded_run (records : List Record) (state : σ) (requests : List (Request ν)) :
    transformer.recorded.run records (state, requests) =
      ((transformer.run records state).1, (transformer.run records state).2,
        requests ++ records.flatMap transformer.requestsFor) := by
  simp [run_eq, recorded_results, recorded_after]

/-- **Fail-fast against collecting.** Over an engine that keeps its requests, which otherwise is
the engine of the transformer: when no record fails, the strict run ends in the report of the
collecting run, with the same requests; else it ends in the first failure of the collecting run,
with the requests that the collecting run makes up to the failing record, and none after it. -/
theorem strict_run_agrees (records : List Record) (state : σ) (requests : List (Request ν)) :
    (transformer.recorded.run records (state, requests)).1 = (transformer.run records state).1 ∧
    (transformer.recorded.run records (state, requests)).2 =
      ((transformer.run records state).2,
        requests ++ records.flatMap transformer.requestsFor) ∧
    match (transformer.recorded.run records (state, requests)).1.failures with
    | [] =>
      transformer.recorded.runStrictly records (state, requests) =
        (.ok (transformer.recorded.run records (state, requests)).1,
          (transformer.recorded.run records (state, requests)).2)
    | (i, e) :: _ =>
      i < records.length ∧
      transformer.recorded.runStrictly records (state, requests) =
        (.error ⟨i, e⟩, (transformer.recorded.run (records.take (i + 1)) (state, requests)).2) ∧
      (transformer.recorded.run records (state, requests)).2.2 =
        (transformer.recorded.run (records.take (i + 1)) (state, requests)).2.2
          ++ (records.drop (i + 1)).flatMap transformer.requestsFor := by
  have hrun := transformer.recorded_run records state requests
  refine ⟨by rw [hrun], by rw [hrun], ?_⟩
  have hagree := transformer.recorded.runStrictly_agrees records (state, requests)
  cases hfailures : (transformer.recorded.run records (state, requests)).1.failures with
  | nil =>
    rw [hfailures] at hagree
    exact hagree
  | cons failure rest =>
    rw [hfailures] at hagree
    refine ⟨hagree.1, hagree.2, ?_⟩
    rw [recorded_run, recorded_run, List.append_assoc, ← List.flatMap_append,
      List.take_append_drop]

end Transformer

end FeatureTransform
