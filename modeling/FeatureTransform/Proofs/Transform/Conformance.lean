import FeatureTransform.Proofs.Feature.Exchange
import FeatureTransform.Proofs.Feature.Fields
import FeatureTransform.Proofs.Transform.Account
import FeatureTransform.Proofs.Transform.Strict

/-!
# What comes out of a run

Every record that a text brings back has been fitted to the schema of the exchange, and a run gives
no record that some text has not brought back. So all that comes out of a run conforms to the
schema, whatever the engine answers.
-/

namespace FeatureTransform

/-- Whatever a text brings back conforms to the schema, since each record is fitted to it before it
is given back. -/
theorem Exchange.conforms_of_decode {exchange : Exchange} (h : exchange.schema.names.Nodup)
    {text : String} {records : List Record} (hdecode : exchange.decode text = .ok records) :
    ∀ record ∈ records, exchange.schema.Conforms record.attributes := by
  intro record hrecord
  rcases exchange.decode_cases hdecode with rfl | ⟨-, -, found, -, -, rfl⟩
  · cases hrecord
  · obtain ⟨raw, -, rfl⟩ := List.mem_map.mp hrecord
    exact Schema.conforms_project h raw.attributes

namespace Transformer

variable {σ ν : Type} (transformer : Transformer σ ν)

/-- What a record gives has been brought back by a text, the one with which the engine answered. -/
theorem exists_decode_of_execute {record : Record} {state : σ} {outputs : List Record}
    (h : (transformer.execute record state).1 = .ok outputs) :
    outputs = [] ∨ ∃ text, transformer.exchange.decode text = .ok outputs := by
  rw [execute] at h
  split at h
  · cases h
  · simp only at h
    split at h
    · cases h
    · cases h
      exact .inl rfl
    · rename_i result left hcall
      exact .inr ⟨result, h⟩

/-- Every record that a run gives is given for some record of the input. -/
theorem exists_execute_of_mem_outputs {records : List Record} {state : σ} {output : Record}
    (h : output ∈ (transformer.run records state).1.outputs) :
    ∃ record reached outputs, (transformer.execute record reached).1 = .ok outputs ∧
      output ∈ outputs := by
  rw [run_eq, Report.ofOutcomes_eq] at h
  obtain ⟨outcome, houtcome, hmem⟩ := List.mem_flatMap.mp h
  obtain ⟨i, hi⟩ := List.mem_iff_getElem?.mp houtcome
  rw [results_getElem?] at hi
  obtain ⟨record, -, rfl⟩ := Option.map_eq_some_iff.mp hi
  refine ⟨record, transformer.after (records.take i) state, ?_⟩
  cases hexecute : (transformer.execute record (transformer.after (records.take i) state)).1 with
  | error e =>
    rw [hexecute] at hmem
    cases hmem
  | ok outputs =>
    rw [hexecute] at hmem
    exact ⟨outputs, rfl, hmem⟩

/-- All that comes out of a run conforms, as each record has been brought back by some text. -/
theorem conforms_of_run (h : transformer.exchange.schema.names.Nodup) (records : List Record)
    (state : σ) : ∀ output ∈ (transformer.run records state).1.outputs,
      transformer.exchange.schema.Conforms output.attributes := by
  intro output houtput
  obtain ⟨record, reached, outputs, hexecute, hmem⟩ :=
    transformer.exists_execute_of_mem_outputs houtput
  rcases transformer.exists_decode_of_execute hexecute with rfl | ⟨text, hdecode⟩
  · cases hmem
  · exact Exchange.conforms_of_decode h hdecode output hmem

/-- A strict run that goes through gives what the other run gives, so that nothing has to be shown
for it anew. -/
theorem report_of_runStrictly {records : List Record} {state : σ} {report : Report}
    (h : (transformer.runStrictly records state).1 = .ok report) :
    report = (transformer.run records state).1 := by
  have hagree := transformer.runStrictly_agrees records state
  split at hagree
  · rw [hagree] at h
    exact (Except.ok.inj h).symm
  · rw [hagree.2] at h
    cases h

end Transformer

/-- **Conformance.** The names of a schema that is inferred from records and extended by fields are
distinct. Whatever text brings back records to it, they conform to it, and so do all that come out
of a run, whatever engine answers. Nothing is asked of the engine because no record is taken from it
as it is: every answer is read as a text and fitted to the schema. -/
theorem outputs_conform (samples : List Record) (added : List Field) :
    let schema := Schema.extended samples added
    schema.names.Nodup ∧
    (∀ exchange : Exchange, exchange.schema = schema → ∀ text records,
      exchange.decode text = .ok records →
        ∀ record ∈ records, schema.Conforms record.attributes) ∧
    (∀ (σ ν : Type) (transformer : Transformer σ ν), transformer.exchange.schema = schema →
      ∀ records state,
        (∀ output ∈ (transformer.run records state).1.outputs,
          schema.Conforms output.attributes) ∧
        ∀ report, (transformer.runStrictly records state).1 = .ok report →
          ∀ output ∈ report.outputs, schema.Conforms output.attributes) := by
  have hdistinct := Schema.nodup_extended samples added
  refine ⟨hdistinct, ?_, ?_⟩
  · rintro exchange hschema text records hdecode
    rw [← hschema] at hdistinct ⊢
    exact Exchange.conforms_of_decode hdistinct hdecode
  · rintro σ ν transformer hschema records state
    rw [← hschema] at hdistinct ⊢
    have hrun := transformer.conforms_of_run hdistinct records state
    refine ⟨hrun, fun report hreport => ?_⟩
    rw [transformer.report_of_runStrictly hreport]
    exact hrun

/-- A record with an integer. -/
def counted : Record :=
  { id? := none, geometry := none, attributes := [("count", .ofInt64 2)] }

/-- An engine that answers every record with one Feature, whose number is beyond the integers. -/
def parrot : Engine Unit Unit where
  evaluate _ state := (.ok (), state)
  global _ state := (.ok (some ()), state)
  isCallable _ state := (true, state)
  call _ _ state := (.ok (some Exchange.loose), state)

/-- A transformer over this engine, for a schema inferred from a record and extended by a field. -/
def parroting : Transformer Unit Unit where
  session := { engine := parrot, dispatcher := (), target := .wgs84, scriptId := "s" }
  exchange :=
    { source := .wgs84, target := .wgs84, schema := .extended [counted] [⟨"rest", .double⟩] }

theorem outputs_conform_parroting : ∃ output,
    (parroting.run [counted] ()).1.outputs = [output] ∧
      parroting.exchange.schema.Conforms output.attributes := by
  have hlength : (parroting.run [counted] ()).1.outputs.length = 1 := by decide +kernel
  obtain ⟨output, houtput⟩ := List.length_eq_one_iff.mp hlength
  have hconform := (outputs_conform [counted] [⟨"rest", .double⟩]).2.2 Unit Unit parroting rfl
    [counted] ()
  exact ⟨output, houtput, hconform.1 output (houtput ▸ List.mem_singleton_self output)⟩

end FeatureTransform
