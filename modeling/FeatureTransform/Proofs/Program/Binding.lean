import FeatureTransform.Proofs.Program.Preamble
import FeatureTransform.Script.Header

/-!
# Values of parameters

What a program gives to the global variable of each parameter is the value that is bound to it: its
text byte for byte, its number with all its digits, nothing if there is none. The lines that do so
use global variables themselves, and a parameter may be called as one of those is; the values are
right exactly if no line takes away what a later line uses.
-/

namespace FeatureTransform

open Lua

/-! ## What is wanted -/

/-- The value that a program has to give to the global variable of a parameter. What the host acts
on itself need not be given. -/
def Parameter.wanted? (p : Parameter) : Option BoundValue → Option Value
  | none | some .null => some .nil
  | some v =>
    match p.kind.bindingStyle with
    | .passThrough => none
    | .text => some (.text (v.asText.getD ""))
    | .number => v.asNumber.map Value.float

namespace Program

/-- The global variables that a program has to set, destinations apart, in the order of the
declarations. -/
def wanted (script : Script) (bindings : Bindings) : List (String × Value) :=
  (script.parameters.filter (!·.kind.isDestination)).filterMap fun p =>
    (p.wanted? (bindings.get? p.name)).map fun v => (p.name, v)

/-- In a new engine the first lines of the program run without an error, and then all variables have
the values that are wanted. -/
def BindsFaithfully (script : Script) (bindings : Bindings) : Prop :=
  ∃ text store, preamble script bindings = .ok text ∧
    Lua.evaluate text .start = (.ok (), store) ∧
    ∀ x v, (x, v) ∈ wanted script bindings → (Lua.global x store).getD .nil = v

/-- A line takes away what a later line uses: the variables in sight, the table of the globals for a
name that Lua does not take, the library for infinity. -/
def Disturbs (first later : String × Value) : Prop :=
  first.1 = "_ENV" ∨ first.1 = "_G" ∧ isIdentifier later.1 = false ∨
    first.1 = "math" ∧ ∃ f : Float, later.2 = .float f ∧ f.isInf = true

end Program

/-! ## Lines -/

/-- The assignment that a parameter leads to. -/
def Setting.of? (p : Parameter) : Option BoundValue → Option Setting
  | none | some .null => some ⟨p.name, .nil⟩
  | some v =>
    match p.kind.bindingStyle with
    | .passThrough => none
    | .text => some ⟨p.name, .text (v.asText.getD "")⟩
    | .number => v.asNumber.map fun f => ⟨p.name, .ofFloat f⟩

namespace Setting

/-- A variable and its value. -/
def entry (s : Setting) : String × Value := (s.name, s.literal.value)

theorem entry_of? (p : Parameter) (v? : Option BoundValue) :
    (of? p v?).map entry = (p.wanted? v?).map fun v => (p.name, v) := by
  unfold of? Parameter.wanted?
  split
  · rfl
  · rfl
  · split
    · rfl
    · rfl
    · rename_i v _ _ _
      cases v.asNumber with
      | none => rfl
      | some f => simp [entry, Literal.value_ofFloat]

theorem of?_some (p : Parameter) {v : BoundValue} (hv : v ≠ .null) :
    of? p (some v) =
      match p.kind.bindingStyle with
      | .passThrough => none
      | .text => some ⟨p.name, .text (v.asText.getD "")⟩
      | .number => v.asNumber.map fun f => ⟨p.name, .ofFloat f⟩ := by
  cases v <;> first | exact absurd rfl hv | rfl

/-- A parameter leads to a line and to the assignment that the line makes, or to none of both. -/
theorem isLine_of_ok {p : Parameter} {v? : Option BoundValue} {a : Assignment}
    (h : Assignment.of p v? = .ok a) : Option.Rel IsLine (of? p v?) a.line? := by
  unfold Assignment.of at h
  split at h
  · cases h
    exact .some ⟨"nil", .nil, rfl⟩
  · cases h
    exact .some ⟨"nil", .nil, rfl⟩
  · -- a value that is not `null` is written as the kind of the parameter asks for
    rename_i v hnull
    rw [of?_some p hnull]
    unfold literalOf at h
    cases hstyle : p.kind.bindingStyle with
    | passThrough =>
      rw [hstyle] at h
      cases h
      exact .none
    | text =>
      rw [hstyle] at h
      cases h
      exact .some ⟨_, .text _, rfl⟩
    | number =>
      rw [hstyle] at h
      cases hnumber : v.asNumber with
      | none =>
        rw [hnumber] at h
        cases h
      | some f =>
        rw [hnumber] at h
        cases h
        exact .some ⟨_, .number f, rfl⟩

/-- The assignments that parameters lead to. -/
def ofParameters (value? : Parameter → Option BoundValue) (parameters : List Parameter) :
    List Setting :=
  parameters.filterMap fun p => of? p (value? p)

theorem isLine_ofParameters {value? : Parameter → Option BoundValue}
    {parameters : List Parameter} {assignments : List Assignment}
    (h : (parameters.map fun p => Assignment.of p (value? p)).mapM id = .ok assignments) :
    List.Forall₂ IsLine (ofParameters value? parameters)
      (assignments.filterMap Assignment.line?) := by
  induction parameters generalizing assignments with
  | nil =>
    cases h
    exact .nil
  | cons p parameters ih =>
    rw [List.map_cons, List.mapM_cons] at h
    cases ha : Assignment.of p (value? p) with
    | error e =>
      rw [ha] at h
      cases h
    | ok a =>
      rw [ha] at h
      cases hrest : (parameters.map fun p => Assignment.of p (value? p)).mapM id with
      | error e =>
        rw [hrest] at h
        cases h
      | ok others =>
        rw [hrest] at h
        cases h
        have hline := isLine_of_ok ha
        have hlines := ih hrest
        rw [ofParameters, List.filterMap_cons, List.filterMap_cons]
        generalize of? p (value? p) = s? at hline ⊢
        generalize a.line? = line? at hline ⊢
        cases hline with
        | none => exact hlines
        | some h => exact .cons h hlines

/-- An assignment takes away what a later one uses. -/
def Disturbs (first later : Setting) : Prop :=
  first.name = environmentName ∨ first.name = "_G" ∧ isIdentifier later.name = false ∨
    first.name = "math" ∧ later.literal.isHuge = true

/-- What an assignment uses is what it was before any of the lines. -/
def IsServed (t : Table) (s : Setting) : Prop :=
  Ready.holder t s.name = .table globalsRef ∧
    (s.literal.isHuge = true → t.getText "math" = .table (libraryRef "math"))

/-- An assignment leaves what a later one uses as it is unless it disturbs it. -/
theorem isServed_setText {t : Table} {first later : Setting} {v : Value} (hv : v.IsPlain)
    (hfirst : first.name ≠ environmentName) :
    IsServed (t.setText first.name v) later ↔ IsServed t later ∧ ¬Disturbs first later := by
  -- what is assigned is no table, so it can only take the place of what was used
  have hself : v ≠ .table globalsRef := by
    rintro rfl
    cases hv
  have hmath : v ≠ .table (libraryRef "math") := by
    rintro rfl
    cases hv
  have hholder : Ready.holder (t.setText first.name v) later.name = .table globalsRef ↔
      Ready.holder t later.name = .table globalsRef ∧
        ¬(first.name = "_G" ∧ isIdentifier later.name = false) := by
    unfold Ready.holder
    rw [Table.getText_setText]
    by_cases hlater : isIdentifier later.name = true <;> by_cases hname : first.name = "_G" <;>
      simp [hlater, hname, hself]
  have hlibrary : (t.setText first.name v).getText "math" = .table (libraryRef "math") ↔
      t.getText "math" = .table (libraryRef "math") ∧ first.name ≠ "math" := by
    rw [Table.getText_setText]
    by_cases hname : first.name = "math" <;> simp [hname, hmath]
  unfold IsServed Disturbs
  rw [hholder, hlibrary]
  constructor
  · rintro ⟨⟨hown, hbracket⟩, hhuge⟩
    refine ⟨⟨hown, fun h => (hhuge h).1⟩, ?_⟩
    rintro (henv | hname | ⟨hname, h⟩)
    · exact hfirst henv
    · exact hbracket hname
    · exact (hhuge h).2 hname
  · rintro ⟨⟨hown, hhuge⟩, hdisturbs⟩
    refine ⟨⟨hown, fun hname => hdisturbs (.inr (.inl hname))⟩, fun h => ⟨hhuge h, fun hname => ?_⟩⟩
    exact hdisturbs (.inr (.inr ⟨hname, h⟩))

section Runs

variable {cell : Nat} {store : Store} {t : Table} {call : Call} {frame : Frame}

/-- Lines run without an error, and then all variables have the values of their lines. -/
def Assigns (call : Call) (frame : Frame) (cell : Nat) (line : Nat) (settings : List Setting)
    (store : Store) : Prop :=
  ∃ next t', execBlock call frame (programEnv cell) 0 (stats line settings) store =
      .done (.next, programEnv cell) next ∧ next.tables[globalsRef]? = some t' ∧
    ∀ s ∈ settings, t'.getText s.name = s.literal.value

/-- Lines of which the first fails do not do what they should. -/
theorem not_assigns_of_raises {s : Setting} {line : Nat} (settings : List Setting)
    (h : (execStat call frame (programEnv cell) (s.stat line)).Raises store) :
    ¬Assigns call frame cell line (s :: settings) store := by
  rintro ⟨next, t', hrun, -⟩
  exact (execBlock_raises h _).not_done hrun

/-- An assignment to another variable than `_ENV` is right if it is at once: no later line assigns
to that variable, as the names are different. -/
theorem assigns_cons_iff {s : Setting} {line : Nat} {settings : List Setting} {v : Value}
    (h : Ready cell store t) (hs : s.name ∉ settings.map Setting.name) (hv : v.IsPlain)
    (hstat : execStat call frame (programEnv cell) (s.stat line) store =
      .done (.next, programEnv cell) (store.setGlobal s.name v)) :
    Assigns call frame cell line (s :: settings) store ↔
      v = s.literal.value ∧
        Assigns call frame cell (line + 1) settings (store.setGlobal s.name v) := by
  have hready := h.setGlobal s.name hv
  have hstep : execBlock call frame (programEnv cell) 0 (stats line (s :: settings)) store =
      execBlock call frame (programEnv cell) 0 (stats (line + 1) settings)
        (store.setGlobal s.name v) := execBlock_next hstat rfl
  -- the lines behind do not change the variable of the first
  have hvalue : ∀ {next : Store} {t' : Table},
      execBlock call frame (programEnv cell) 0 (stats (line + 1) settings)
          (store.setGlobal s.name v) = .done (.next, programEnv cell) next →
        next.tables[globalsRef]? = some t' → t'.getText s.name = v := by
    intro next t' hrun ht'
    rw [Between.getText_of_done (.inl hready) hrun ht' hs, Table.getText_setText, if_pos rfl]
  unfold Assigns
  rw [hstep]
  constructor
  · rintro ⟨next, t', hrun, ht', hvalues⟩
    refine ⟨?_, next, t', hrun, ht', fun b hb => hvalues b (List.mem_cons_of_mem _ hb)⟩
    rw [← hvalue hrun ht', hvalues s List.mem_cons_self]
  · rintro ⟨rfl, next, t', hrun, ht', hvalues⟩
    refine ⟨next, t', hrun, ht', fun b hb => ?_⟩
    rcases List.mem_cons.mp hb with rfl | hb
    · exact hvalue hrun ht'
    · exact hvalues b hb

/-- An assignment to `_ENV` is right if nothing is wanted and nothing comes behind it: what it sets
is no global variable, and it takes the others out of sight. -/
theorem assigns_environment_iff {s : Setting} {settings : List Setting}
    (h : Ready cell store t) (henv : t.getText environmentName = .nil)
    (hs : s.name ∉ settings.map Setting.name) (hname : s.name = environmentName) (line : Nat) :
    Assigns call frame cell line (s :: settings) store ↔
      settings = [] ∧ s.literal.value = .nil := by
  constructor
  · intro hassigns
    rcases h.execStat_environment call frame line hname with
      hraises | ⟨middle, hstat, hblind, htables⟩
    · exact absurd hassigns (not_assigns_of_raises settings hraises)
    obtain ⟨next, t', hrun, ht', hvalues⟩ := hassigns
    have hrest : execBlock call frame (programEnv cell) 0 (stats (line + 1) settings) middle =
        .done (.next, programEnv cell) next := (execBlock_next hstat rfl).symm.trans hrun
    -- without `_ENV` no other variable can be found, and another line would look for one
    cases settings with
    | nil =>
      rw [stats, execBlock] at hrest
      cases hrest
      rw [htables, h.globals] at ht'
      cases ht'
      refine ⟨rfl, ?_⟩
      rw [← hvalues s List.mem_cons_self, hname, henv]
    | cons b settings =>
      exfalso
      rcases hblind.execStat_cases call frame b (line + 1) with
        hraises | ⟨hb, -⟩
      · exact (execBlock_raises hraises _).not_done hrest
      · exact hs (by simp [hname, hb])
  · rintro ⟨rfl, hnil⟩
    have hconstant : s.literal.isHuge = false := by
      by_contra hhuge
      exact Literal.value_ne_nil (by simpa using hhuge) hnil
    have hvalue : evalExpr call frame (programEnv cell) (s.literal.expr line) store =
        .done [s.literal.value] store := evalExpr_constant hconstant line
    have hstat := execStat_setCell line hname hvalue
    refine ⟨_, t, (execBlock_next hstat rfl).trans (execBlock_nil ..), ?_, fun b hb => ?_⟩
    · exact h.globals
    · rw [List.mem_singleton.mp hb, hname, henv, hnil]

/-- **Runs.** Lines assign what they say exactly if no line takes away what a later line uses, all
of it is there at the beginning, and nothing is wanted for `_ENV`. The induction is on the lines;
the table of the globals changes from one to the next. -/
theorem assigns_iff (h : Ready cell store t) (henv : t.getText environmentName = .nil)
    (call : Call) (frame : Frame) {settings : List Setting}
    (hnames : (settings.map Setting.name).Nodup) (line : Nat) :
    Assigns call frame cell line settings store ↔
      settings.Pairwise (fun first later => ¬Disturbs first later) ∧
        ∀ s ∈ settings, IsServed t s ∧ (s.name = environmentName → s.literal.value = .nil) := by
  induction settings generalizing store t line with
  | nil =>
    exact ⟨fun _ => ⟨.nil, nofun⟩, fun _ => ⟨store, t, execBlock_nil .., h.globals, nofun⟩⟩
  | cons s settings ih =>
    rw [List.map_cons, List.nodup_cons] at hnames
    obtain ⟨hs, hnames⟩ := hnames
    rw [List.pairwise_cons, List.forall_mem_cons]
    -- lines for `_ENV`, lines that find what they use, and lines that do not
    by_cases hname : s.name = environmentName
    · rw [assigns_environment_iff h henv hs hname line]
      constructor
      · rintro ⟨rfl, hnil⟩
        have hholder : Ready.holder t s.name = .table globalsRef := by
          rw [hname, Ready.holder, if_pos (by decide)]
        exact ⟨⟨nofun, .nil⟩, ⟨⟨hholder, fun hhuge => absurd hnil (Literal.value_ne_nil hhuge)⟩,
          fun _ => hnil⟩, nofun⟩
      · rintro ⟨⟨hdisturbs, -⟩, ⟨-, hnil⟩, -⟩
        refine ⟨List.eq_nil_iff_forall_not_mem.mpr fun b hb => ?_, hnil hname⟩
        exact hdisturbs b hb (.inl hname)
    by_cases hserved : IsServed t s
    · have hplain := isPlain_value s.literal
      have hstat := h.execStat_assigns call frame s line hname hserved.1
        hserved.2
      have henv' : (t.setText s.name s.literal.value).getText environmentName = .nil := by
        rw [Table.getText_setText, if_neg hname, henv]
      rw [assigns_cons_iff h hs hplain hstat,
        ih (h.setGlobal s.name hplain) henv' hnames (line + 1)]
      simp only [isServed_setText hplain hname]
      constructor
      · rintro ⟨-, hpairwise, hrest⟩
        exact ⟨⟨fun b hb => (hrest b hb).1.2, hpairwise⟩, ⟨hserved, fun henv => absurd henv hname⟩,
          fun b hb => ⟨(hrest b hb).1.1, (hrest b hb).2⟩⟩
      · rintro ⟨⟨hdisturbs, hpairwise⟩, -, hrest⟩
        exact ⟨trivial, hpairwise, fun b hb => ⟨⟨(hrest b hb).1, hdisturbs b hb⟩, (hrest b hb).2⟩⟩
    · refine iff_of_false (fun hassigns => ?_) fun hright => hserved hright.2.1.1
      rcases h.execStat_cases call frame s line with
        hraises | ⟨henvironment, -⟩ | ⟨-, hself, v, hstat, hv, hvalue⟩
      · exact not_assigns_of_raises settings hraises hassigns
      · exact hname henvironment
      · have heq := ((assigns_cons_iff h hs hv hstat).mp hassigns).1
        rcases hvalue with ⟨-, hmath⟩ | ⟨rfl, hhuge⟩
        · exact hserved ⟨hself, hmath⟩
        · exact Literal.value_ne_nil hhuge heq.symm

end Runs

/-! ### Lines of parameters -/

section Parameters

variable {value? : Parameter → Option BoundValue} {parameters : List Parameter}

/-- The lines stand in the order of the parameters, with their names; some parameters have no line.
-/
theorem names_ofParameters (value? : Parameter → Option BoundValue) (parameters : List Parameter) :
    ((ofParameters value? parameters).map name).Sublist (parameters.map Parameter.name) := by
  induction parameters with
  | nil => exact .slnil
  | cons p parameters ih =>
    rw [ofParameters, List.filterMap_cons, List.map_cons]
    cases hs : of? p (value? p) with
    | none => exact .cons _ ih
    | some s =>
      have hname : s.name = p.name := by
        have hentry := entry_of? p (value? p)
        rw [hs] at hentry
        obtain ⟨v, -, hv⟩ := Option.map_eq_some_iff.mp hentry.symm
        exact congrArg Prod.fst hv.symm
      simp only [List.map_cons, hname]
      exact ih.cons_cons _

theorem map_entry_ofParameters (value? : Parameter → Option BoundValue)
    (parameters : List Parameter) :
    (ofParameters value? parameters).map entry =
      parameters.filterMap fun p => (p.wanted? (value? p)).map fun v => (p.name, v) := by
  simp only [ofParameters, List.map_filterMap, entry_of?]

end Parameters

theorem exists_isLine {settings : List Setting} {lines : List String}
    (h : List.Forall₂ IsLine settings lines) {s : Setting} (hs : s ∈ settings) :
    ∃ text, s.IsLine text := by
  induction h with
  | nil => cases hs
  | cons hfirst _ ih =>
    rcases List.mem_cons.mp hs with rfl | hs
    · exact ⟨_, hfirst⟩
    · exact ih hs

/-- Infinity is what asks the library. -/
theorem isHuge_iff {s : Setting} {text : String} (h : s.IsLine text) :
    s.literal.isHuge = true ↔ ∃ f : Float, s.literal.value = .float f ∧ f.isInf = true := by
  obtain ⟨source, hsource, -⟩ := h
  generalize s.literal = ℓ at hsource
  cases hsource with
  | nil => simp [Literal.isHuge, Literal.value, Value.float]
  | text s => simp [Literal.isHuge, Literal.value, Value.float, Value.text]
  | number f => simp [Literal.isHuge_ofFloat, Literal.value_ofFloat, Value.float]

theorem disturbs_iff {first later : Setting} {text : String} (h : later.IsLine text) :
    first.Disturbs later ↔ Program.Disturbs first.entry later.entry := by
  unfold Disturbs Program.Disturbs entry
  rw [isHuge_iff h]
  rfl

theorem isServed_globals (s : Setting) : IsServed globals s := by
  refine ⟨?_, fun _ => globals_math⟩
  unfold Ready.holder
  split
  · rfl
  · exact globals_self

end Setting

/-! ## Parameters -/

namespace Program

variable {script : Script} {bindings : Bindings} {text : String}

/-- The assignments of a program. -/
def settings (script : Script) (bindings : Bindings) : List Setting :=
  Setting.ofParameters (fun p => bindings.get? p.name)
    (script.parameters.filter (!·.kind.isDestination))

theorem map_entry_settings (script : Script) (bindings : Bindings) :
    (settings script bindings).map Setting.entry = wanted script bindings :=
  Setting.map_entry_ofParameters _ _

theorem mem_wanted {s : Setting} (h : s ∈ settings script bindings) :
    (s.name, s.literal.value) ∈ wanted script bindings := by
  rw [← map_entry_settings]
  exact List.mem_map_of_mem h

/-- The first lines of a program are those of its assignments, one for each. -/
theorem lines_of_preamble (h : preamble script bindings = .ok text) :
    ∃ lines, List.Forall₂ Setting.IsLine (settings script bindings) lines ∧
      text = String.join lines := by
  unfold preamble at h
  cases hsteps : (steps script bindings).mapM id with
  | error e =>
    rw [hsteps] at h
    cases h
  | ok assignments =>
    rw [hsteps] at h
    cases h
    exact ⟨_, Setting.isLine_ofParameters hsteps, rfl⟩

theorem exists_preamble {program : String} (h : compose script bindings = .ok program) :
    ∃ text, preamble script bindings = .ok text ∧
      program = text ++ dispatcherText ++ script.body := by
  unfold compose at h
  cases hpreamble : preamble script bindings with
  | error e =>
    rw [hpreamble] at h
    cases h
  | ok text =>
    rw [hpreamble] at h
    cases h
    exact ⟨text, rfl, rfl⟩

/-- The program of the first lines alone. -/
theorem readProgram_preamble (h : preamble script bindings = .ok text) :
    Lua.readProgram text = .ok (Setting.stats 1 (settings script bindings)) := by
  obtain ⟨lines, hlines, rfl⟩ := lines_of_preamble h
  have hprogram := Setting.readProgram_lines hlines (List.append_nil _).symm nofun rfl .nil
    Setting.completes_nil fun before => by rw [Lua.blockJumps?]
  rwa [List.append_nil] at hprogram

/-- The first lines do what they should exactly if their assignments do, one after another, in the
state in which a new engine begins. -/
theorem bindsFaithfully_iff_assigns (h : preamble script bindings = .ok text) :
    BindsFaithfully script bindings ↔
      Setting.Assigns (callWithin 99999) { varargs := [], callers := [] } 0 1
        (settings script bindings)
        (Store.start.opened (Setting.stats 1 (settings script bindings))) := by
  have hread := readProgram_preamble h
  constructor
  · -- a program that runs has run its lines, since lines that fail raise an error
    rintro ⟨other, store, hother, hrun, hvalues⟩
    rw [h] at hother
    cases hother
    have hready := ready_opened (Setting.stats 1 (settings script bindings))
    rcases Between.execBlock_cases (.inl hready) (callWithin 99999) { varargs := [], callers := [] }
      (settings script bindings) [] 1 with hraises | ⟨next, t, hnext, ⟨hbetween, -, -⟩⟩
    · rw [List.append_nil] at hraises
      exact absurd (congrArg Prod.fst hrun) (evaluate_raises hread hraises)
    · rw [List.append_nil, execBlock_nil] at hnext
      have hdone : Lua.evaluate text .start = (.ok (), next) := evaluate_done hread hnext
      rw [hrun] at hdone
      cases hdone
      refine ⟨store, t, hnext, hbetween.globals, fun s hs => ?_⟩
      rw [← getD_global hbetween.globals]
      exact hvalues _ _ (mem_wanted hs)
  · -- lines that have run are all of the program
    rintro ⟨store, t, hrun, ht, hvalues⟩
    refine ⟨text, store, h, evaluate_done hread hrun, fun x v hv => ?_⟩
    rw [← map_entry_settings] at hv
    obtain ⟨s, hs, hentry⟩ := List.mem_map.mp hv
    cases hentry
    rw [getD_global ht]
    exact hvalues s hs

/-- **Faithful binding.** The variables of parameters have the values that are wanted exactly if no
line takes away what a later line uses and nothing is wanted for `_ENV`. The lines use three global
variables, whose names are not reserved: a parameter of such a name replaces what the lines behind
it need. -/
theorem bindsFaithfully_iff (script : Script) (bindings : Bindings) {program : String}
    (hnames : (script.parameters.map Parameter.name).Nodup)
    (hcompose : compose script bindings = .ok program) :
    BindsFaithfully script bindings ↔
      (wanted script bindings).Pairwise (fun first later => ¬Disturbs first later) ∧
        ∀ v, ("_ENV", v) ∈ wanted script bindings → v = .nil := by
  obtain ⟨text, hpreamble, -⟩ := exists_preamble hcompose
  have hsublist : ((settings script bindings).map Setting.name).Sublist
      (script.parameters.map Parameter.name) :=
    (Setting.names_ofParameters _ _).trans (List.filter_sublist.map _)
  have hready := ready_opened (Setting.stats 1 (settings script bindings))
  have hlines : ∀ s ∈ settings script bindings, ∃ text, s.IsLine text := by
    obtain ⟨lines, hlines, -⟩ := lines_of_preamble hpreamble
    exact fun s hs => Setting.exists_isLine hlines hs
  -- disturbing is said of what is wanted here, and of the assignments there
  have hdisturbs : (settings script bindings).Pairwise (fun first later => ¬first.Disturbs later) ↔
      (settings script bindings).Pairwise
        (fun first later => ¬Disturbs first.entry later.entry) := by
    refine List.Pairwise.iff_of_mem fun {first later} _ hlater => ?_
    obtain ⟨text, htext⟩ := hlines later hlater
    rw [Setting.disturbs_iff htext]
  rw [bindsFaithfully_iff_assigns hpreamble,
    Setting.assigns_iff hready globals_environment _ _ (hsublist.nodup hnames) 1, hdisturbs,
    ← map_entry_settings, List.pairwise_map]
  refine and_congr_right fun _ => ⟨fun h v hv => ?_, fun h s hs => ⟨s.isServed_globals, ?_⟩⟩
  · -- what is wanted for `_ENV` is wanted by the line of that name
    obtain ⟨s, hs, hentry⟩ := List.mem_map.mp hv
    have hvalue : s.literal.value = v := congrArg Prod.snd hentry
    rw [← hvalue]
    exact (h s hs).2 (congrArg Prod.fst hentry)
  · intro hname
    exact h _ (List.mem_map.mpr ⟨s, hs, by rw [Setting.entry, hname]; rfl⟩)

/-- A script with a parameter that is called as the library of numbers, and a number behind it. -/
def shadowingScript : Script :=
  .ofSource "--#math=string\n--#x=number\nfunction func(feature) return x end"

/-- A text for the first of its parameters and infinity for the second. -/
def shadowingBindings : Bindings := ⟨[("math", .text "a"), ("x", .number (1.0 / 0.0))]⟩

/-- The second parameter does not get infinity, since the first has taken the place of the library
that has it. -/
theorem not_bindsFaithfully_shadowing :
    (shadowingScript.parameters.map Parameter.name).Nodup ∧
      (compose shadowingScript shadowingBindings).isOk = true ∧
      ¬BindsFaithfully shadowingScript shadowingBindings := by
  have hnames : (shadowingScript.parameters.map Parameter.name).Nodup := by decide
  have hcompose : (compose shadowingScript shadowingBindings).isOk = true := by decide
  have hwanted : wanted shadowingScript shadowingBindings =
      [("math", .text "a"), ("x", .float (1.0 / 0.0))] := by decide
  refine ⟨hnames, hcompose, fun h => ?_⟩
  cases hprogram : compose shadowingScript shadowingBindings with
  | error e =>
    rw [hprogram] at hcompose
    cases hcompose
  | ok program =>
    obtain ⟨hpairwise, -⟩ := (bindsFaithfully_iff _ _ hnames hprogram).mp h
    rw [hwanted] at hpairwise
    obtain ⟨hdisturbs, -⟩ := List.pairwise_cons.mp hpairwise
    exact hdisturbs _ List.mem_cons_self (.inr (.inr ⟨rfl, _, rfl, by decide⟩))

end Program

end FeatureTransform
