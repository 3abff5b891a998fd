import FeatureTransform.Proofs.Attempt
import FeatureTransform.Proofs.Transform.Strict
import FeatureTransform.Script.Header

/-!
# The course of a session

Whether a session comes about is decided by a list of conditions. Those of the script and its
values come first, and while one of them fails the engine is not asked anything. Then the engine
evaluates the program, once; the other conditions are about its answer, and about what it then has
to say of two globals: each is looked up, and the value that is found is asked about. Once there is
a session, each record that can leave makes one call, of the dispatcher that was found, and nothing
else is asked for.

The conditions are stated each by itself, without regard to those before it; that building fails
with the first that fails, and that nothing is asked behind it, is what has to be shown. An engine
may change its state whenever it is asked, so every answer is that of the state that the questions
before it have left.
-/

namespace FeatureTransform

namespace Session

variable {σ ν : Type}

/-! ## Conditions -/

/-- The first of some conditions that fails, if one does. -/
def first (conditions : List (Option BuildError)) : Option BuildError := conditions.findSome? id

/-- The error that a script holds. -/
def held? (script : Script) : Option BuildError := script.error?.map .invalidScript

/-- A number parameter whose value is no number. -/
def misbound? (bindings : Bindings) (p : Parameter) : Option BuildError :=
  match p.kind, bindings.get? p.name with
  | .number _ _ _, some v =>
    if v ≠ .null ∧ v.asNumber = none then some (.invalidBinding p.name v.display) else none
  | _, _ => none

/-- What the engine is not asked about. -/
def refusals (script : Script) (bindings : Bindings) : List (Option BuildError) :=
  held? script :: script.parameters.map (misbound? bindings)

/-- A program that cannot be evaluated. -/
def unevaluated? : Except Failure Unit → Option BuildError
  | .error e => some (.evaluation e.message)
  | .ok () => none

/-- A global that cannot be read. -/
def unreadable? : Except Failure (Option ν) → Option BuildError
  | .error e => some (.engine e.message)
  | .ok _ => none

/-- A global that there is not. -/
def missing? (error : BuildError) : Except Failure (Option ν) → Option BuildError
  | .ok none => some error
  | _ => none

/-- A global that cannot be called. -/
def uncallable? (error : BuildError) (isCallable : ν → Bool) :
    Except Failure (Option ν) → Option BuildError
  | .ok (some value) => if isCallable value then none else some error
  | _ => none

/-- What a global that is to be called has to be, with the errors for one that there is not and for
one that cannot be called. -/
def demands (engine : Engine σ ν) (name : String) (missing uncallable : BuildError) (state : σ) :
    List (Option BuildError) :=
  let (answer, left) := engine.global name state
  [unreadable? answer, missing? missing answer,
    uncallable? uncallable (fun value => (engine.isCallable value left).1) answer]

/-- What the entry point has to be. -/
def entryDemands (engine : Engine σ ν) : σ → List (Option BuildError) :=
  demands engine entryPoint .noEntryPoint .entryPointNotCallable

/-- What the dispatcher has to be. -/
def dispatcherDemands (engine : Engine σ ν) : σ → List (Option BuildError) :=
  demands engine dispatcherName .dispatcherOverwritten .dispatcherOverwritten

/-- What the engine is asked about a global that is to be called, and the state in which this leaves
it: the global is looked up, and the value asked about if there is one. -/
def inquiry (engine : Engine σ ν) (name : String) (state : σ) : List (Request ν) × σ :=
  match engine.global name state with
  | (.ok (some value), left) =>
    ([.global name, .isCallable value], (engine.isCallable value left).2)
  | (_, left) => ([.global name], left)

/-- What the engine is asked about, by what came of the program. -/
def obstacles (engine : Engine σ ν) (evaluated : Except Failure Unit × σ) :
    List (Option BuildError) :=
  unevaluated? evaluated.1 :: (entryDemands engine evaluated.2 ++
    dispatcherDemands engine (inquiry engine entryPoint evaluated.2).2)

/-- What the engine is asked behind the program, and the state in which this leaves it. Where a
condition fails, there is nothing more to ask. -/
def questions (engine : Engine σ ν) : Except Failure Unit × σ → List (Request ν) × σ
  | (.error _, left) => ([], left)
  | (.ok (), left) =>
    let entry := inquiry engine entryPoint left
    match first (entryDemands engine left) with
    | some _ => entry
    | none =>
      let dispatcher := inquiry engine dispatcherName entry.2
      (entry.1 ++ dispatcher.1, dispatcher.2)

theorem first_cons_none (rest : List (Option BuildError)) : first (none :: rest) = first rest :=
  rfl

/-- The first condition of two lists that fails is that of the first list, or else that of the
second. -/
theorem first_append (conditions others : List (Option BuildError)) :
    first (conditions ++ others) = (first conditions).or (first others) :=
  List.findSome?_append

/-! ## Values -/

section Values

variable {bindings : Bindings} {p : Parameter} {e : BuildError}

theorem of_eq_error (h : misbound? bindings p = some e) :
    p.kind.isDestination = false ∧ Assignment.of p (bindings.get? p.name) = .error e := by
  unfold misbound? at h
  split at h
  · next v hkind hv =>
    split at h
    · next hbad =>
      cases h
      have hstyle : p.kind.bindingStyle = .number := by rw [hkind]; rfl
      refine ⟨by rw [hkind]; rfl, ?_⟩
      rw [hv]
      cases v with
      | null => exact absurd rfl hbad.1
      | text s => simp only [Assignment.of, literalOf, hstyle, hbad.2]
      | number f => exact absurd hbad.2 nofun
      | bool b => simp only [Assignment.of, literalOf, hstyle, hbad.2]
    · cases h
  · cases h

theorem exists_of_eq_ok (h : misbound? bindings p = none) :
    ∃ a, Assignment.of p (bindings.get? p.name) = .ok a := by
  cases hv : bindings.get? p.name with
  | none => exact ⟨_, rfl⟩
  | some v =>
    by_cases hnull : v = .null
    · exact ⟨.assign p.name "nil", by rw [hnull]; rfl⟩
    · have hof : Assignment.of p (some v) = literalOf p v := by
        cases v with
        | null => exact absurd rfl hnull
        | _ => rfl
      rw [hof, literalOf]
      cases hstyle : p.kind.bindingStyle with
      | passThrough => exact ⟨_, rfl⟩
      | text => exact ⟨_, rfl⟩
      | number =>
        -- such a parameter was looked at, and its value is a number
        have hnumber : v.asNumber ≠ none := by
          intro hnone
          unfold misbound? at h
          cases hkind : p.kind with
          | number _ _ _ => simp [hkind, hv, hnull, hnone] at h
          | _ => rw [hkind] at hstyle; cases hstyle
        obtain ⟨f, hf⟩ := Option.ne_none_iff_exists'.mp hnumber
        exact ⟨_, by rw [hf]⟩

/-- **Values.** A program is composed unless a number parameter has a value that is no number, and
the first such parameter is what it fails with. The conditions stand in the order of the parameters,
and so do the steps of composing. -/
theorem compose_spec (script : Script) (bindings : Bindings) :
    match first (script.parameters.map (misbound? bindings)) with
    | some e => Program.compose script bindings = .error e
    | none => ∃ text, Program.compose script bindings = .ok text := by
  have hsteps : (Program.steps script bindings).mapM id =
      (script.parameters.filter (!·.kind.isDestination)).mapM
        fun p => Assignment.of p (bindings.get? p.name) := List.mapM_map
  cases hfirst : first (script.parameters.map (misbound? bindings)) with
  | some e =>
    rw [first, List.findSome?_map, List.findSome?_eq_some_iff] at hfirst
    obtain ⟨front, p, back, hparameters, hp, hfront⟩ := hfirst
    obtain ⟨hkind, hof⟩ := of_eq_error hp
    -- leaving out destinations leaves out no parameter that fails, and none in front of it does
    have hmap : (Program.steps script bindings).mapM id = .error e := by
      rw [hsteps, hparameters, List.filter_append, List.filter_cons_of_pos (by simp [hkind])]
      refine Attempt.mapM_append_error hof fun q hq => .inr ?_
      exact exists_of_eq_ok (hfront q (List.mem_of_mem_filter hq))
    simp only [Program.compose, Program.preamble, hmap]
    rfl
  | none =>
    rw [first, List.findSome?_map, List.findSome?_eq_none_iff] at hfirst
    obtain ⟨assignments, hmap⟩ : ∃ assignments, (Program.steps script bindings).mapM id =
        .ok assignments := by
      rw [hsteps]
      exact Attempt.exists_mapM fun p hp => exists_of_eq_ok (hfirst p (List.mem_of_mem_filter hp))
    simp only [Program.compose, Program.preamble, hmap]
    exact ⟨_, rfl⟩

end Values

/-! ## Answers of the engine -/

/-- **A global** that is to be called is found unless one of the demands on it fails, and the first
that does is what looking for it fails with. In both cases the engine was asked the same: whether
the value can be called is asked only if there is one. -/
theorem findCallable_spec (engine : Engine σ ν) (name : String) (missing uncallable : BuildError)
    (state : σ) :
    match first (demands engine name missing uncallable state) with
    | some e => findCallable engine name missing uncallable state =
        (.error e, (inquiry engine name state).2)
    | none => ∃ value, (engine.global name state).1 = .ok (some value) ∧
        findCallable engine name missing uncallable state =
          (.ok value, (inquiry engine name state).2) := by
  unfold demands findCallable inquiry
  rcases engine.global name state with ⟨e | (_ | value), left⟩
  · rfl
  · rfl
  · rcases hask : engine.isCallable value left with ⟨callable, last⟩
    cases callable with
    | false => simp [first, unreadable?, missing?, uncallable?, hask]
    | true => simp [first, unreadable?, missing?, uncallable?, hask]

/-! ## Building -/

section Building

variable (script : Script) (bindings : Bindings) (target : ReferenceSystem)
  (engine : Engine σ ν) (state : σ)

/-- The session over the dispatcher that was found. -/
def established (dispatcher : ν) : Session σ ν :=
  { engine := engine, dispatcher := dispatcher, target := target, scriptId := script.id }

/-- The answer to the look-up of the dispatcher. -/
def dispatcherAnswer (evaluated : Except Failure Unit × σ) : Except Failure (Option ν) :=
  (engine.global dispatcherName (inquiry engine entryPoint evaluated.2).2).1

/-- **Building** fails with the first condition that does, and leaves the engine as the questions up
to there do. -/
theorem build_spec :
    match first (refusals script bindings) with
    | some e => build script bindings target engine state = (.error e, state)
    | none => ∃ text, Program.compose script bindings = .ok text ∧
        match first (obstacles engine (engine.evaluate text state)) with
        | some e => build script bindings target engine state =
            (.error e, (questions engine (engine.evaluate text state)).2)
        | none => ∃ dispatcher,
            dispatcherAnswer engine (engine.evaluate text state) = .ok (some dispatcher) ∧
            build script bindings target engine state =
              (.ok (established script target engine dispatcher),
                (questions engine (engine.evaluate text state)).2) := by
  unfold refusals held?
  cases herror : script.error? with
  | some message => simp [first, build, herror]
  | none =>
    have hcompose := compose_spec script bindings
    rw [Option.map_none, first_cons_none]
    cases hvalues : first (script.parameters.map (misbound? bindings)) with
    | some e =>
      rw [hvalues] at hcompose
      simp [build, herror, hcompose]
    | none =>
      rw [hvalues] at hcompose
      obtain ⟨text, htext⟩ := hcompose
      refine ⟨text, htext, ?_⟩
      -- the engine is asked from here on, in the state that the program leaves
      rcases hevaluate : engine.evaluate text state with ⟨e | _, left⟩
      · simp [obstacles, questions, unevaluated?, first, build, herror, htext, hevaluate]
      · have hentry := findCallable_spec engine entryPoint .noEntryPoint .entryPointNotCallable left
        have hdispatcher := findCallable_spec engine dispatcherName .dispatcherOverwritten
          .dispatcherOverwritten (inquiry engine entryPoint left).2
        simp only [obstacles, questions, unevaluated?, first_cons_none, first_append, entryDemands,
          dispatcherDemands, dispatcherAnswer]
        cases hfirst : first (demands engine entryPoint .noEntryPoint .entryPointNotCallable
          left) with
        | some e =>
          rw [hfirst] at hentry
          simp only [Option.some_or, build, herror, htext, hevaluate, findEntryPoint, hentry]
        | none =>
          rw [hfirst] at hentry
          obtain ⟨value, -, hvalue⟩ := hentry
          rw [Option.none_or]
          cases hsecond : first (demands engine dispatcherName .dispatcherOverwritten
            .dispatcherOverwritten (inquiry engine entryPoint left).2) with
          | some e =>
            rw [hsecond] at hdispatcher
            simp only [build, herror, htext, hevaluate, findEntryPoint, findDispatcher, hvalue,
              hdispatcher]
          | none =>
            rw [hsecond] at hdispatcher
            obtain ⟨dispatcher, hglobal, hfound⟩ := hdispatcher
            refine ⟨dispatcher, hglobal, ?_⟩
            simp only [build, herror, htext, hevaluate, findEntryPoint, findDispatcher, hvalue,
              hfound,
              established]

end Building

/-! ## The whole course -/

variable (script : Script) (bindings : Bindings) (target source : ReferenceSystem)
  (schema : Schema) (records : List Record) (engine : Engine σ ν) (state : σ)

/-- What the engine is asked, from the building of a session to the last of some records. -/
def requests : List (Request ν) :=
  match build script bindings target engine.recorded (state, []) with
  | (.error _, left) => left.2
  | (.ok session, left) => ((Transformer.of session source schema).run records left).2.2

/-- A record does not leave exactly when it has a geometry that cannot be carried over. -/
theorem exportText_eq_error_iff (exchange : Exchange) (record : Record) :
    (∃ e, exchange.exportText record = .error e) ↔
      ∃ geometry e, record.geometry = some geometry ∧
        reproject exchange.source exchange.target geometry = .error e := by
  unfold Exchange.exportText
  cases record.geometry with
  | none => simp
  | some geometry =>
    cases hmoved : reproject exchange.source exchange.target geometry with
    | ok moved => simp [hmoved]
    | error e => simp [hmoved]

/-- The call that a record makes, if it can leave. -/
def call? (exchange : Exchange) (dispatcher : ν) (record : Record) : Option (Request ν) :=
  (exchange.exportText record).toOption.map fun payload => .call dispatcher [payload]

theorem flatMap_requestsFor (transformer : Transformer σ ν) :
    records.flatMap transformer.requestsFor =
      records.filterMap (call? transformer.exchange transformer.session.dispatcher) := by
  rw [List.filterMap_eq_flatMap_toList]
  congr 1
  funext record
  unfold Transformer.requestsFor call?
  cases transformer.exchange.exportText record <;> rfl

/-- What is asked about a global is kept behind what was asked before, and changes nothing else. -/
theorem inquiry_recorded (name : String) (asked : List (Request ν)) :
    inquiry engine.recorded name (state, asked) =
      ((inquiry engine name state).1, (inquiry engine name state).2,
        asked ++ (inquiry engine name state).1) := by
  simp only [inquiry, Engine.recorded, Engine.keep]
  rcases engine.global name state with ⟨e | (_ | value), left⟩
  · rfl
  · rfl
  · simp only [List.append_assoc, List.singleton_append]

/-- What is demanded of the entry point does not depend on what has been kept. -/
theorem entryDemands_recorded (asked : List (Request ν)) :
    entryDemands engine.recorded (state, asked) = entryDemands engine state := rfl

/-- Keeping the requests changes no answer. -/
theorem obstacles_recorded (answer : Except Failure Unit) (asked : List (Request ν)) :
    obstacles engine.recorded (answer, state, asked) = obstacles engine (answer, state) := by
  simp only [obstacles, inquiry_recorded, entryDemands_recorded]
  rfl

theorem dispatcherAnswer_recorded (answer : Except Failure Unit) (asked : List (Request ν)) :
    dispatcherAnswer engine.recorded (answer, state, asked) =
      dispatcherAnswer engine (answer, state) := by
  simp only [dispatcherAnswer, inquiry_recorded]
  rfl

/-- The questions are kept behind what was asked before. -/
theorem questions_recorded (answer : Except Failure Unit) (asked : List (Request ν)) :
    (questions engine.recorded (answer, state, asked)).2 =
      ((questions engine (answer, state)).2, asked ++ (questions engine (answer, state)).1) := by
  cases answer with
  | error e => simp [questions]
  | ok _ =>
    simp only [questions, inquiry_recorded, entryDemands_recorded]
    cases first (entryDemands engine state) with
    | some e => rfl
    | none => simp only [List.append_assoc]

/-- **The course of a session.** While a condition of the script or its values fails, building
fails with the first and the engine is asked nothing. Else it evaluates the program, once and before
anything else. If a condition of what the engine answers then fails, building fails with the first;
up to there the two globals have been looked up and asked about, and nothing has been called. Else
there is a session over the dispatcher that was found; each record that can leave makes one call of
it with its text, in the order of the records, and nothing more is asked. What cannot leave are the
geometries that cannot be carried over. -/
theorem course :
    (match first (refusals script bindings) with
      | some e => build script bindings target engine state = (.error e, state) ∧
          requests script bindings target source schema records engine state = []
      | none => ∃ text, Program.compose script bindings = .ok text ∧
          match first (obstacles engine (engine.evaluate text state)) with
          | some e =>
            build script bindings target engine state =
                (.error e, (questions engine (engine.evaluate text state)).2) ∧
              requests script bindings target source schema records engine state =
                .evaluate text :: (questions engine (engine.evaluate text state)).1
          | none => ∃ dispatcher,
              dispatcherAnswer engine (engine.evaluate text state) = .ok (some dispatcher) ∧
              build script bindings target engine state =
                (.ok (established script target engine dispatcher),
                  (questions engine (engine.evaluate text state)).2) ∧
              requests script bindings target source schema records engine state =
                .evaluate text :: (questions engine (engine.evaluate text state)).1 ++
                  records.filterMap (call? ⟨source, target, schema⟩ dispatcher)) ∧
    ∀ record : Record, (∃ e, (Exchange.mk source target schema).exportText record = .error e) ↔
      ∃ geometry e, record.geometry = some geometry ∧
        reproject source target geometry = .error e := by
  refine ⟨?_, exportText_eq_error_iff ⟨source, target, schema⟩⟩
  have hplain := build_spec script bindings target engine state
  -- the engine that keeps its requests meets the same conditions, so both end in the same case
  have hrecorded := build_spec script bindings target engine.recorded (state, [])
  have hevaluate (text : String) : engine.recorded.evaluate text (state, []) =
      ((engine.evaluate text state).1, (engine.evaluate text state).2, [.evaluate text]) := rfl
  simp only [hevaluate, obstacles_recorded, dispatcherAnswer_recorded, questions_recorded]
    at hrecorded
  unfold requests
  cases hrefused : first (refusals script bindings) with
  | some e =>
    rw [hrefused] at hplain hrecorded
    exact ⟨hplain, by rw [hrecorded]⟩
  | none =>
    rw [hrefused] at hplain hrecorded
    obtain ⟨text, htext, hplain⟩ := hplain
    obtain ⟨text', htext', hrecorded⟩ := hrecorded
    obtain rfl : text = text' := Except.ok.inj (htext.symm.trans htext')
    refine ⟨text, htext, ?_⟩
    cases hfirst : first (obstacles engine (engine.evaluate text state)) with
    | some e =>
      rw [hfirst] at hplain hrecorded
      exact ⟨hplain, by rw [hrecorded]; rfl⟩
    | none =>
      rw [hfirst] at hplain hrecorded
      obtain ⟨dispatcher, hanswer, hplain⟩ := hplain
      obtain ⟨dispatcher', hanswer', hrecorded⟩ := hrecorded
      obtain rfl : dispatcher = dispatcher' :=
        Option.some.inj (Except.ok.inj (hanswer.symm.trans hanswer'))
      refine ⟨dispatcher, hanswer, hplain, ?_⟩
      have hrun := (Transformer.of (established script target engine dispatcher) source
        schema).recorded_run records (questions engine (engine.evaluate text state)).2
        ([.evaluate text] ++ (questions engine (engine.evaluate text state)).1)
      rw [hrecorded]
      exact (congrArg (fun left => left.2.2) hrun).trans (by rw [flatMap_requestsFor])

/-- An engine that grants everything. -/
def granting : Engine Unit Unit where
  evaluate _ state := (.ok (), state)
  global _ state := (.ok (some ()), state)
  isCallable _ state := (true, state)
  call _ _ state := (.ok none, state)

/-- Two records, of which the first has a geometry. -/
def stranded : List Record :=
  [{ id? := none, geometry := some (.object []), attributes := [] },
    { id? := none, geometry := none, attributes := [] }]

example : requests (.ofSource "--#lanes=number\nbody") ⟨[("lanes", .text "wide")]⟩ .wgs84 ⟨"X:1"⟩
    ⟨[]⟩ stranded granting () = [] := by
  decide +kernel

example : requests (.ofSource "--#lanes=number\nbody") ⟨[]⟩ .wgs84 ⟨"X:1"⟩ ⟨[]⟩ stranded
    granting () = [.evaluate ("lanes = nil\n" ++ dispatcherText ++ "body"),
      .global entryPoint, .isCallable (), .global dispatcherName, .isCallable (),
      .call () ["\x7b\"geometry\":null,\"properties\":\x7b\x7d,\"type\":\"Feature\"\x7d"]] := by
  decide +kernel

end Session

end FeatureTransform
