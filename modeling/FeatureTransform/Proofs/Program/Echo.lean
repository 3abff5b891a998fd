import FeatureTransform.Declaration.Resolve
import FeatureTransform.Proofs.Program.Binding
import FeatureTransform.Proofs.Program.Dispatcher
import FeatureTransform.Session

/-!
# Sessions with a script that returns what it gets

Behind the lines of its parameters the program of such a script defines two functions, the
dispatcher and the script's own. If the lines come to their end with the globals in sight, both are
defined, and what the dispatcher uses is what it was in the new engine: no line assigns to a name
that is reserved.
-/

namespace FeatureTransform

open Lua

/-! ## The script -/

/-- The tokens of a function that returns what it gets, under the name of the entry point. -/
def echoTokens : List Token :=
  [.mark "function", .name entryPoint, .mark "(", .name "feature", .mark ")", .mark "return",
    .name "feature", .mark "end"]

/-- A text of which, on lines of its own, nothing but that function is read, with any white space
and any comments. -/
def IsEcho (body : String) : Prop :=
  ∀ line, (tokensFrom (body.toList.length + 1) line ('\n' :: body.toList)).map
    (List.map Lexeme.token) = some echoTokens

/-- The plainest such text. -/
theorem isEcho_plain : IsEcho "function func(feature) return feature end" := fun _ => rfl

namespace Dispatcher

/-! ## Reading -/

/-- The tokens of the dispatcher that begins on a line. -/
def lexemes (line : Nat) : List Lexeme :=
  onLine line
      [.mark "function", .name dispatcherName, .mark "(", .name "record", .mark ")"] ++
    onLine (line + 1) [.mark "local", .name "result", .mark "=", .name entryPoint, .mark "(",
      .name "json", .mark ".", .name "decode", .mark "(", .name "record", .mark ")", .mark ")"] ++
    onLine (line + 2) [.mark "if", .mark "not", .name "result", .mark "then"] ++
    onLine (line + 3) [.mark "return", .mark "nil"] ++ onLine (line + 4) [.mark "end"] ++
    onLine (line + 5) [.mark "return", .name "json", .mark ".", .name "encode", .mark "(",
      .name "result", .mark ")"] ++
    onLine (line + 6) [.mark "end"]

/-- The tokens of a function that returns what it gets; `lines` says where each of them stands. -/
def echoLexemes (lines : Fin 8 → Nat) : List Lexeme :=
  [⟨.mark "function", lines 0⟩, ⟨.name entryPoint, lines 1⟩, ⟨.mark "(", lines 2⟩,
    ⟨.name "feature", lines 3⟩, ⟨.mark ")", lines 4⟩, ⟨.mark "return", lines 5⟩,
    ⟨.name "feature", lines 6⟩, ⟨.mark "end", lines 7⟩]

/-- The two functions of a program, the first of which begins on a line. -/
def definitions (line : Nat) (lines : Fin 8 → Nat) : List Stat :=
  [.assign [.name dispatcherName line] [.function (function line)] line,
    .assign [.name entryPoint (lines 1)] [.function (echo (lines 6))] (lines 0)]

set_option maxRecDepth 100000 in
/-- The text of the dispatcher is read up to the end of its last line. It is a fixed text, and what
stands behind it does not go on with its last token. -/
theorem readSteps?_dispatcherText (line : Nat) (s : Text) :
    readSteps? 59 line (dispatcherText.toList ++ s) = some (lexemes line, line + 6, '\n' :: s) := by
  simp only [dispatcherText, String.reduceToList, List.cons_append, List.nil_append]
  rfl

theorem dispatcherText_start :
    dispatcherText.toList.head? = some 'f' ∧ 60 ≤ dispatcherText.toList.length := by
  simp [dispatcherText]

/-- Tokens are known up to their lines, which depend on how the script is laid out. -/
theorem exists_echoLexemes {ts : List Lexeme} (h : ts.map Lexeme.token = echoTokens) :
    ∃ lines, ts = echoLexemes lines := by
  have hlength : ts.length = 8 := by
    rw [← List.length_map Lexeme.token, h]
    rfl
  match ts, hlength with
  | [⟨_, a⟩, ⟨_, b⟩, ⟨_, c⟩, ⟨_, d⟩, ⟨_, e⟩, ⟨_, f⟩, ⟨_, g⟩, ⟨_, l⟩], _ =>
    simp only [echoTokens, List.map_cons, List.map_nil, List.cons.injEq] at h
    obtain ⟨rfl, rfl, rfl, rfl, rfl, rfl, rfl, rfl, -⟩ := h
    exact ⟨![a, b, c, d, e, f, g, l], rfl⟩

/-- What is read of a program behind the lines of its parameters: the tokens of the dispatcher and
then those of the script. -/
theorem tokensFrom_echo {body : String} (hbody : IsEcho body) (line : Nat) :
    ∃ lines, tokensFrom (dispatcherText.toList ++ body.toList).length line
      (dispatcherText.toList ++ body.toList) = some (lexemes line ++ echoLexemes lines) := by
  obtain ⟨ts, hts, htokens⟩ := Option.map_eq_some_iff.mp (hbody (line + 6))
  obtain ⟨lines, rfl⟩ := exists_echoLexemes htokens
  have hlength := dispatcherText_start.2
  have hread := tokensFrom_of_readSteps (readSteps?_dispatcherText line _) hts
  refine ⟨lines, tokensFrom_mono hread ?_⟩
  rw [List.length_append]
  omega

theorem statement_lexemes (room line last : Nat) (tail : List Lexeme) :
    (Parsers.atMost (room + 8)).statement { tokens := lexemes line ++ tail, last := last } =
      .ok (some (.assign [.name dispatcherName line] [.function (function line)] line),
        { tokens := tail, last := line + 6 }) := by
  rfl

theorem statement_echoLexemes (room last : Nat) (lines : Fin 8 → Nat) :
    (Parsers.atMost (room + 8)).statement { tokens := echoLexemes lines, last := last } =
      .ok (some (.assign [.name entryPoint (lines 1)] [.function (echo (lines 6))] (lines 0)),
        { tokens := [], last := lines 7 }) := by
  rfl

/-- Such tokens are the statements of the two functions, in front of which there may be anything. -/
theorem completes_echo (line : Nat) (lines : Fin 8 → Nat) :
    Setting.Completes (lexemes line ++ echoLexemes lines) (definitions line lines) := by
  intro fuel last done
  refine ⟨lines 7, ?_⟩
  have hlength : (lexemes line ++ echoLexemes lines).length = 39 + 1 := rfl
  rw [hlength]
  refine (Parser.loop_next _ (Parsers.blockStep_next done rfl
    (statement_lexemes 191 line last (echoLexemes lines)) nofun)).trans ?_
  refine (Parser.loop_next _ (Parsers.blockStep_next _ rfl
    (statement_echoLexemes 191 (line + 6) lines) nofun)).trans ?_
  exact Parser.loop_done _ rfl

theorem ends_lexemes (line : Nat) (tail : List Lexeme) : Parsers.Ends (lexemes line ++ tail) :=
  .function _ _

/-- The two functions keep the rules of scope. -/
theorem blockJumps?_definitions (line : Nat) (lines : Fin 8 → Nat) (before : List Stat) :
    blockJumps? .program false before (definitions line lines) = some [] := by
  rfl

/-- The program is read as its assignments and the two functions. -/
theorem readProgram_echo {script : Script} {bindings : Bindings} {text : String}
    (hpreamble : Program.preamble script bindings = .ok text) (hbody : IsEcho script.body) :
    ∃ line lines, readProgram (text ++ dispatcherText ++ script.body) =
      .ok (Setting.stats 1 (Program.settings script bindings) ++ definitions line lines) := by
  obtain ⟨assignments, hlines, rfl⟩ := Program.lines_of_preamble hpreamble
  obtain ⟨lines, htokens⟩ :=
    tokensFrom_echo hbody (1 + (Program.settings script bindings).length)
  refine ⟨_, lines, Setting.readProgram_lines hlines (by simp) (fun c hc => ?_) htokens
    (ends_lexemes _ _) (completes_echo _ lines) (blockJumps?_definitions _ lines)⟩
  rw [List.head?_append, dispatcherText_start.1] at hc
  cases hc
  decide

/-! ## Running -/

/-- A state in which the function of the script and the dispatcher are global variables. -/
structure Defines (dispatcher : Nat) (store : Store) : Prop where
  /-- they are there -/
  globals : ∃ t script, store.tables[globalsRef]? = some t ∧
    t.getText entryPoint = .closure script ∧ t.getText dispatcherName = .closure dispatcher
  /-- the dispatcher can call the function of the script -/
  echoes : Echoes dispatcher store

section Running

variable {cell : Nat} {store : Store} {t : Table}

/-- Where the globals are in sight and the library is what it was, the two functions are defined,
each behind what was there. -/
theorem execBlock_definitions (h : Ready cell store t)
    (hlibrary : t.getText "json" = .table (libraryRef "json"))
    (htables : ∀ {ref : Nat}, globalsRef ≠ ref → store.tables[ref]? = Store.start.tables[ref]?)
    (call : Call) (frame : Frame) (line : Nat) (lines : Fin 8 → Nat) :
    ∃ dispatcher next, execBlock call frame (programEnv cell) 0 (definitions line lines) store =
      .done (.next, programEnv cell) next ∧ Defines dispatcher next := by
  have hdispatcher : (programEnv cell).lookup dispatcherName = none := rfl
  have hentry : (programEnv cell).lookup entryPoint = none := rfl
  -- the state behind the dispatcher, and the state behind the function of the script
  let dispatcher := store.closures.size
  let middle := (store.withClosure (function line) (programEnv cell)).setGlobal dispatcherName
    (.closure dispatcher)
  let script := middle.closures.size
  let last := (middle.withClosure (echo (lines 6)) (programEnv cell)).setGlobal entryPoint
    (.closure script)
  have hsees : SeesGlobals (programEnv cell) middle
      (t.setText dispatcherName (.closure dispatcher)) :=
    (h.sees.mono (Store.grows_withClosure ..)).setGlobal ..
  have hmeta : (t.setText dispatcherName (.closure dispatcher)).metatable = none := by
    rw [Table.metatable_setText, h.metatable]
  have hrun : execBlock call frame (programEnv cell) 0 (definitions line lines) store =
      .done (.next, programEnv cell) last := by
    refine (execBlock_next (execStat_function h.sees h.metatable hdispatcher _ _ _) rfl).trans ?_
    refine (execBlock_next (execStat_function hsees hmeta hentry _ _ _) rfl).trans ?_
    exact execBlock_nil ..
  have hglobals := ((hsees.mono (Store.grows_withClosure middle (echo (lines 6))
    (programEnv cell))).setGlobal entryPoint (.closure script)).globals
  have hother : ∀ {ref : Nat}, globalsRef ≠ ref → last.tables[ref]? = Store.start.tables[ref]? := by
    intro ref hne
    rw [Store.table_setGlobal hne]
    exact (Store.table_setGlobal hne ..).trans (htables hne)
  have hentry_last : ((t.setText dispatcherName (.closure dispatcher)).setText entryPoint
      (.closure script)).getText entryPoint = .closure script := by
    rw [Table.getText_setText, if_pos rfl]
  have hlinked : Linked last cell script := by
    refine ⟨h.environment, ⟨lines 6, middle.closures_withClosure ..⟩,
      ⟨_, hglobals, hentry_last, ?_⟩, ?_, (hother (by decide)).trans start_arrayMeta⟩
    · rw [Table.getText_setText, if_neg (by decide), Table.getText_setText, if_neg (by decide),
        hlibrary]
    · obtain ⟨library, hjson, hdecode, hencode⟩ := start_json
      exact ⟨library, (hother (by decide)).trans hjson, hdecode, hencode⟩
  refine ⟨dispatcher, last, hrun, ⟨_, script, hglobals, hentry_last, ?_⟩,
    ⟨line, cell, script, hlinked, Store.getElem?_push (store.closures_withClosure ..)⟩⟩
  rw [Table.getText_setText, if_neg (by decide), Table.getText_setText, if_pos rfl]

/-- Whatever the lines of the parameters do, an error is raised or the two functions are defined.
Out of sight of the globals, the definition itself is the error. -/
theorem execBlock_echo (script : Script) (bindings : Bindings) (body : List Stat)
    (hjson : "json" ∉ (Program.settings script bindings).map Setting.name) (call : Call)
    (frame : Frame) (line : Nat) (lines : Fin 8 → Nat) :
    (execBlock call frame (programEnv 0) 0
        (Setting.stats 1 (Program.settings script bindings) ++ definitions line lines)).Raises
      (Store.start.opened body) ∨
    ∃ dispatcher next, execBlock call frame (programEnv 0) 0
        (Setting.stats 1 (Program.settings script bindings) ++ definitions line lines)
        (Store.start.opened body) = .done (.next, programEnv 0) next ∧ Defines dispatcher next := by
  have hready : Between 0 (Store.start.opened body) globals := .inl (ready_opened body)
  rcases hready.execBlock_cases call frame (Program.settings script bindings)
    (definitions line lines) 1 with hraises | ⟨middle, t, hlines, hbehind⟩
  · exact .inl hraises
  have hlibrary : t.getText "json" = .table (libraryRef "json") := by
    rw [hbehind.values _ hjson, globals_json]
  -- behind a line for `_ENV` no global is seen, and the first definition fails
  rcases hbehind.between with hready | ⟨hblind, -⟩
  · right
    obtain ⟨dispatcher, next, hnext, hdefines⟩ :=
      execBlock_definitions hready hlibrary hbehind.tables call frame line lines
    exact ⟨dispatcher, next, hlines.trans hnext, hdefines⟩
  · left
    have hfirst : (execStat call frame (programEnv 0)
        (.assign [.name dispatcherName line] [.function (function line)] line)).Raises middle :=
      hblind.raises_function (by decide) _ line line
    obtain ⟨e, next, hraises⟩ := execBlock_raises hfirst _
    exact ⟨e, next, hlines.trans hraises⟩

end Running

end Dispatcher

/-! ## Sessions -/

/-- The names that are reserved are not assigned to; so the library of JSON stays what it is. -/
theorem Program.json_not_mem {script : Script} (bindings : Bindings)
    (hnames : ∀ p ∈ script.parameters, p.name ∉ reservedNames) :
    "json" ∉ (settings script bindings).map Setting.name := by
  intro hmem
  have hsublist : ((settings script bindings).map Setting.name).Sublist
      (script.parameters.map Parameter.name) :=
    (Setting.names_ofParameters _ _).trans (List.filter_sublist.map _)
  obtain ⟨p, hp, hname⟩ := List.mem_map.mp (hsublist.subset hmem)
  exact hnames p hp (by rw [hname]; decide)

namespace Session

/-- Whatever comes of looking for a global, the store stays as it is. -/
theorem findCallable_snd (name : String) (missing uncallable : BuildError) (store : Store) :
    (findCallable Lua.engine name missing uncallable store).2 = store := by
  have hglobal : Lua.engine.global name store = (.ok (Lua.global name store), store) := rfl
  rw [findCallable, hglobal]
  cases Lua.global name store with
  | none => rfl
  | some value =>
    have hask : Lua.engine.isCallable value store = (Lua.isCallable value store, store) := rfl
    simp only [hask]
    cases Lua.isCallable value store <;> rfl

/-- A global that is a function is found. -/
theorem findCallable_function {name : String} {store : Store} {ref : Nat}
    (missing uncallable : BuildError)
    (h : Lua.engine.global name store = (.ok (some (.closure ref)), store)) :
    findCallable Lua.engine name missing uncallable store = (.ok (.closure ref), store) := by
  simp only [findCallable, h]
  rfl

variable {script : Script} {bindings : Bindings} {program : String} {dispatcher : Nat}
  {store : Store}

/-- The session whose dispatcher is the function of that number. -/
def withDispatcher (script : Script) (target : ReferenceSystem) (dispatcher : Nat) :
    Session Store Value :=
  { engine := Lua.engine, dispatcher := .closure dispatcher, target := target
    scriptId := script.id }

/-- A program that defines the two functions makes a session, for all else has been asked of the
script before. -/
theorem build_done (target : ReferenceSystem) (hrunnable : script.error? = none)
    (hcompose : Program.compose script bindings = .ok program)
    (hrun : Lua.evaluate program .start = (.ok (), store))
    (hdefines : Dispatcher.Defines dispatcher store) :
    build script bindings target Lua.engine .start =
      (.ok (withDispatcher script target dispatcher), store) := by
  obtain ⟨t, _, ht, hentry, hdispatcher⟩ := hdefines.globals
  have hfound := findCallable_function .noEntryPoint .entryPointNotCallable
    (engine_global ht hentry nofun)
  have hfound' := findCallable_function .dispatcherOverwritten .dispatcherOverwritten
    (engine_global ht hdispatcher nofun)
  rw [build, hrunnable]
  simp only [hcompose, engine_evaluate hrun, findEntryPoint, findDispatcher, hfound, hfound']
  rfl

/-- A session comes of a script without errors whose program has been evaluated; otherwise building
would have failed earlier. -/
theorem exists_program {target : ReferenceSystem} {session : Session Store Value}
    (h : build script bindings target Lua.engine .start = (.ok session, store)) :
    script.error? = none ∧ ∃ program, Program.compose script bindings = .ok program ∧
      Lua.evaluate program .start = (.ok (), store) := by
  unfold build at h
  split at h
  · cases h
  · rename_i hrunnable
    refine ⟨hrunnable, ?_⟩
    split at h
    · cases h
    · rename_i program hcompose
      refine ⟨program, hcompose, ?_⟩
      split at h
      · cases h
      · rename_i next hevaluate
        -- looking for the two functions leaves the store as the program has left it
        have hstore : next = store := by
          split at h
          · cases h
          · rename_i value left hentry
            obtain rfl : left = next := by
              rw [← findCallable_snd entryPoint .noEntryPoint .entryPointNotCallable next]
              exact (congrArg Prod.snd hentry).symm
            split at h
            · cases h
            · rename_i dispatcher last hdispatcher
              cases h
              rw [← findCallable_snd dispatcherName .dispatcherOverwritten
                .dispatcherOverwritten left]
              exact congrArg Prod.snd hdispatcher
        rw [← hstore]
        simp only [Lua.engine] at hevaluate
        cases hrun : Lua.evaluate program .start with
        | mk result last =>
          rw [hrun] at hevaluate
          cases result with
          | error e => cases hevaluate
          | ok _ => exact congrArg (Prod.mk _) (congrArg Prod.snd hevaluate)

/-- **Sessions.** A session with a script that returns what it gets has the dispatcher, which can
call the function of the script. This holds whatever values are bound: had they disturbed the two
functions, there would be no session. -/
theorem echoes_of_build {target : ReferenceSystem} {session : Session Store Value}
    (hbody : IsEcho script.body) (hnames : ∀ p ∈ script.parameters, p.name ∉ reservedNames)
    (h : build script bindings target Lua.engine .start = (.ok session, store)) :
    ∃ dispatcher, session = withDispatcher script target dispatcher ∧
      Dispatcher.Echoes dispatcher store := by
  obtain ⟨hrunnable, program, hcompose, hrun⟩ := exists_program h
  obtain ⟨text, hpreamble, rfl⟩ := Program.exists_preamble hcompose
  obtain ⟨line, lines, hread⟩ := Dispatcher.readProgram_echo hpreamble hbody
  rcases Dispatcher.execBlock_echo script bindings _ (Program.json_not_mem bindings hnames)
    (callWithin 99999) { varargs := [], callers := [] } line lines with
    hraises | ⟨dispatcher, next, hnext, hdefines⟩
  · exact absurd (congrArg Prod.fst hrun) (evaluate_raises hread hraises)
  · have hdone : Lua.evaluate _ .start = (.ok (), next) := evaluate_done hread hnext
    rw [hrun] at hdone
    cases hdone
    rw [build_done target hrunnable hcompose hrun hdefines] at h
    cases h
    exact ⟨dispatcher, rfl, hdefines.echoes⟩

/-- **Building** a session with such a script succeeds if the script has no parameters. -/
theorem exists_build_echo (bindings : Bindings) (target : ReferenceSystem)
    (hrunnable : script.error? = none) (hparameters : script.parameters = [])
    (hbody : IsEcho script.body) :
    ∃ session start, build script bindings target Lua.engine .start = (.ok session, start) := by
  have hsettings : Program.settings script bindings = [] := by
    rw [Program.settings, hparameters]
    rfl
  have hpreamble : Program.preamble script bindings = .ok "" := by
    rw [Program.preamble, Program.steps, hparameters]
    rfl
  have hcompose : Program.compose script bindings =
      .ok ("" ++ dispatcherText ++ script.body) := by
    rw [Program.compose, hpreamble]
    rfl
  obtain ⟨line, lines, hread⟩ := Dispatcher.readProgram_echo hpreamble hbody
  rw [hsettings] at hread
  obtain ⟨dispatcher, start, hrun, hdefines⟩ := Dispatcher.execBlock_definitions
    (ready_opened (Dispatcher.definitions line lines)) globals_json (fun _ => rfl)
    (callWithin 99999) { varargs := [], callers := [] } line lines
  exact ⟨_, _, build_done target hrunnable hcompose (evaluate_done hread hrun) hdefines⟩

end Session

end FeatureTransform
