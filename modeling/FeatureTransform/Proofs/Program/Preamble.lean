import FeatureTransform.Proofs.Lua.Fault
import FeatureTransform.Proofs.Program.Assignment

/-!
# Assignments at work

The first lines of a program give values to the global variables. Three of these variables are used
by the lines themselves: `_ENV` by all of them, `_G` by those whose names Lua does not take, and
`math` by those that assign infinity. As long as such a variable is what it was, the lines that use
it do what they should; a line behind its assignment raises an error or assigns something else.
-/

namespace FeatureTransform

open Lua

/-! ## Wherever the globals are -/

/-- The variables in sight of a program. -/
def programEnv (cell : Nat) : Env := [(environmentName, cell)]

section Anywhere

variable {cell : Nat} {store : Store} {call : Call} {frame : Frame}

theorem lookup_programEnv {x : String} (hx : x ≠ environmentName) :
    (programEnv cell).lookup x = none := by
  rw [programEnv, List.lookup_cons, beq_false_of_ne hx]
  rfl

/-- A sign in front of a double. -/
theorem evalExpr_sign {e : Expr} {f : Float} {env : Env} (line : Nat) (negative : Bool)
    (he : evalExpr call frame env e store = .done [.float f] store) :
    evalExpr call frame env (Literal.signExpr line negative e) store =
      .done [.float (Double.signed negative f)] store := by
  cases negative with
  | false => exact he
  | true =>
    change evalExpr call frame env (.unary .minus e line) store = _
    rw [evalExpr]
    exact (Eval.bind_done _ he).trans rfl

/-- A literal that asks nothing has its value everywhere, even with the globals out of sight. -/
theorem evalExpr_constant {ℓ : Literal} {env : Env} (hℓ : ℓ.isHuge = false) (line : Nat) :
    evalExpr call frame env (ℓ.expr line) store = .done [ℓ.value] store := by
  cases ℓ with
  | nil =>
    rw [Literal.expr, evalExpr]
    rfl
  | text s =>
    rw [Literal.expr, evalExpr]
    rfl
  | nan =>
    have hnan : Float.nearest 0 / Float.nearest 0 = (0.0 / 0.0 : Float) := by decide
    have hdivide : evalExpr call frame env
        (.binary (.arith .div) (.number (.int 0)) (.number (.int 0)) line) store =
          .done [.float (Float.nearest 0 / Float.nearest 0)] store := by
      simp only [evalExpr]
      rfl
    rw [hnan] at hdivide
    rw [Literal.expr, evalExpr]
    exact (Eval.bind_done _ hdivide).trans rfl
  | huge negative => cases hℓ
  | numeral negative magnitude => exact evalExpr_sign line negative (by rw [evalExpr]; rfl)

/-- A value that a line has assigned is no table, so that whatever it replaces cannot be used as
one. -/
theorem isPlain_value (ℓ : Literal) : ℓ.value.IsPlain := by cases ℓ <;> trivial

end Anywhere

/-! ## What the lines use -/

/-- The globals are in sight, and what the lines use of them either is what it was or is a value
that a line has assigned. -/
structure Ready (cell : Nat) (store : Store) (t : Table) : Prop where
  /-- the variable of that number holds the global variables -/
  environment : store.cells[cell]? = some (.table globalsRef)
  /-- these are the global variables -/
  globals : store.tables[globalsRef]? = some t
  /-- they behave like any table -/
  metatable : t.metatable = none
  /-- the variable for themselves -/
  self : t.getText "_G" = .table globalsRef ∨ (t.getText "_G").IsPlain
  /-- the variable for the library of numbers -/
  math : t.getText "math" = .table (libraryRef "math") ∨ (t.getText "math").IsPlain
  /-- the library of numbers -/
  library : ∃ m, store.tables[libraryRef "math"]? = some m ∧ m.metatable = none ∧
    m.getText "huge" = .float (1.0 / 0.0)
  /-- the library of strings -/
  strings : HasStrings store

namespace Ready

variable {cell : Nat} {store : Store} {t : Table} {call : Call} {frame : Frame}

theorem sees (h : Ready cell store t) : SeesGlobals (programEnv cell) store t :=
  ⟨⟨cell, rfl, h.environment⟩, h.globals⟩

/-! ### Targets -/

/-- What the field that a line assigns to is a field of. -/
def holder (t : Table) (name : String) : Value :=
  if isIdentifier name then .table globalsRef else t.getText "_G"

/-- A global variable has the value that the table has, `nil` if it has none. -/
theorem evalExpr_name (h : Ready cell store t) {x : String} (hx : x ≠ environmentName)
    (line : Nat) :
    evalExpr call frame (programEnv cell) (.name x line) store = .done [t.getText x] store := by
  have hread : readName call frame (programEnv cell) x line store = .done (t.getText x) store := by
    rw [readName, lookup_programEnv hx]
    refine (Eval.bind_done _ h.sees.readLocal).trans ?_
    exact index_table _ _ h.globals h.metatable x
  rw [evalExpr]
  exact Eval.bind_done _ hread

theorem evalTargets (h : Ready cell store t) (call : Call) (frame : Frame) {name : String}
    (hname : name ≠ environmentName) (line : Nat) :
    Lua.evalTargets call frame (programEnv cell) [targetExpr line name] store =
      .done [.field (holder t name) (.text name)] store := by
  unfold targetExpr holder
  split
  · exact evalTargets_name h.sees (lookup_programEnv hname) line
  · exact evalTargets_index line (h.evalExpr_name (by decide) line) name

/-! ### Values -/

/-- The field that infinity is read from. -/
theorem evalExpr_field (h : Ready cell store t) {v : Value} (line : Nat)
    (hindex : index call (frame.at line) (t.getText "math") (.text "huge") store = .done v store) :
    evalExpr call frame (programEnv cell)
      (.index (.name "math" line) (.string "huge".toUTF8) line) store = .done [v] store := by
  have hkey : evalExpr call frame (programEnv cell) (.string "huge".toUTF8) store =
      .done [.text "huge"] store := by
    rw [evalExpr]
    rfl
  rw [evalExpr]
  refine (Eval.bind_done _ (h.evalExpr_name (by decide) line)).trans ?_
  exact (Eval.bind_done _ hkey).trans (Eval.bind_done _ hindex)

/-- **Values.** A literal has its value, unless it is infinity and the library is out of sight:
infinity alone has no digits and no expression of its own. -/
theorem evalExpr_literal (h : Ready cell store t) (ℓ : Literal) (line : Nat)
    (hmath : ℓ.isHuge = true → t.getText "math" = .table (libraryRef "math")) :
    evalExpr call frame (programEnv cell) (ℓ.expr line) store = .done [ℓ.value] store := by
  cases ℓ with
  | huge negative =>
    obtain ⟨m, hm, hmeta, hhuge⟩ := h.library
    have hindex := index_table call (frame.at line) hm hmeta "huge"
    rw [hhuge, ← hmath rfl] at hindex
    exact evalExpr_sign line negative (h.evalExpr_field line hindex)
  | _ => exact evalExpr_constant rfl line

/-- Infinity is not found in what has taken the place of the library: a text has no such field, and
a number or nothing has no fields at all. -/
theorem evalExpr_huge (h : Ready cell store t) (hmath : (t.getText "math").IsPlain)
    (negative : Bool) (line : Nat) :
    (evalExpr call frame (programEnv cell) ((Literal.huge negative).expr line)).Raises store ∨
      evalExpr call frame (programEnv cell) ((Literal.huge negative).expr line) store =
        .done [.nil] store := by
  have hraises : (index call (frame.at line) (t.getText "math") (.text "huge")).Raises store →
      (evalExpr call frame (programEnv cell) ((Literal.huge negative).expr line)).Raises store := by
    intro hindex
    have hfield : (evalExpr call frame (programEnv cell)
        (.index (.name "math" line) (.string "huge".toUTF8) line)).Raises store := by
      rw [evalExpr]
      refine .behind ?_ (h.evalExpr_name (by decide) line)
      refine .behind (hindex.bind _) (?_ : _ = Ending.done [.text "huge"] store)
      rw [evalExpr]
      rfl
    cases negative with
    | false => exact hfield
    | true =>
      change (evalExpr call frame _ (.unary .minus _ line)).Raises store
      rw [evalExpr]
      exact hfield.bind _
  -- only a text can be indexed in place of the library, and `huge` is none of its methods
  cases hv : t.getText "math" with
  | nil => exact .inl (hraises (by rw [hv]; exact raises_index_nil ..))
  | number n => exact .inl (hraises (by rw [hv]; exact raises_index_number ..))
  | string s =>
    have hindex := h.strings.index_string call (frame.at line) s "huge" (by simp)
    rw [← hv] at hindex
    have hfield := h.evalExpr_field line hindex
    cases negative with
    | false => exact .inr hfield
    | true =>
      left
      change (evalExpr call frame _ (.unary .minus _ line)).Raises store
      rw [evalExpr]
      exact .behind ((raises_minus_nil _ _ store).bind _) hfield
  | _ =>
    rw [hv] at hmath
    cases hmath

/-! ### Lines -/

/-- Behind an assignment of such a value to any other variable than `_ENV` the lines go on, in a
table that differs in that variable only. -/
theorem setGlobal (h : Ready cell store t) (x : String) {v : Value} (hv : v.IsPlain) :
    Ready cell (store.setGlobal x v) (t.setText x v) := by
  have hother : ∀ {y : String} {w : Value}, (t.getText y = w ∨ (t.getText y).IsPlain) →
      (t.setText x v).getText y = w ∨ ((t.setText x v).getText y).IsPlain := by
    intro y w hy
    rw [Table.getText_setText]
    split
    · exact .inr hv
    · exact hy
  obtain ⟨m, hm, hmath⟩ := h.library
  obtain ⟨s, hs, hstring⟩ := h.strings.library
  refine ⟨h.environment, Store.globals_setGlobal h.globals x v, ?_, hother h.self, hother h.math,
    ⟨m, ?_, hmath⟩, ⟨?_, s, ?_, hstring⟩⟩
  · rw [Table.metatable_setText, h.metatable]
  · rwa [Store.table_setGlobal (by decide)]
  · rw [Store.table_setGlobal (by decide), h.strings.metatable]
  · rwa [Store.table_setGlobal (by decide)]

/-- A line does what it says if what it uses is what it was: the table of the globals, and the
library where it asks for infinity. -/
theorem execStat_assigns (h : Ready cell store t) (call : Call) (frame : Frame) (s : Setting)
    (line : Nat) (hname : s.name ≠ environmentName) (hself : holder t s.name = .table globalsRef)
    (hmath : s.literal.isHuge = true → t.getText "math" = .table (libraryRef "math")) :
    execStat call frame (programEnv cell) (s.stat line) store =
      .done (.next, programEnv cell) (store.setGlobal s.name s.literal.value) := by
  have htarget := h.evalTargets call frame hname line
  rw [hself] at htarget
  exact execStat_assign line htarget (h.evalExpr_literal s.literal line hmath) h.globals h.metatable

/-- What a literal comes to in any case: an error, its value, or nothing instead of infinity. A text
in the place of the library raises no error. -/
theorem evalExpr_cases (h : Ready cell store t) (call : Call) (frame : Frame) (ℓ : Literal)
    (line : Nat) :
    (evalExpr call frame (programEnv cell) (ℓ.expr line)).Raises store ∨
      ∃ v, evalExpr call frame (programEnv cell) (ℓ.expr line) store = .done [v] store ∧
        (v = ℓ.value ∧ (ℓ.isHuge = true → t.getText "math" = .table (libraryRef "math")) ∨
          v = .nil ∧ ℓ.isHuge = true) := by
  by_cases hmath : t.getText "math" = .table (libraryRef "math")
  · exact .inr ⟨_, h.evalExpr_literal ℓ line fun _ => hmath, .inl ⟨rfl, fun _ => hmath⟩⟩
  · cases ℓ with
    | huge negative =>
      rcases h.evalExpr_huge (h.math.resolve_left hmath) negative line with hraises | hnil
      · exact .inl hraises
      · exact .inr ⟨_, hnil, .inr ⟨rfl, rfl⟩⟩
    | _ => exact .inr ⟨_, evalExpr_constant rfl line, .inl ⟨rfl, nofun⟩⟩

/-- A line that uses `_G` raises an error behind the line that assigns to it. -/
theorem execStat_raises (h : Ready cell store t) (s : Setting) (line : Nat)
    (hname : s.name ≠ environmentName) (hself : (holder t s.name).IsPlain) :
    (execStat call frame (programEnv cell) (s.stat line)).Raises store := by
  have htarget := h.evalTargets call frame hname line
  rcases h.evalExpr_cases call frame s.literal line with hraises | ⟨v, hv, -⟩
  · exact raises_assign_value htarget hraises
  · exact raises_assign_field htarget hself hv h.strings

end Ready

/-! ## The globals out of sight -/

/-- The variable that should hold the globals holds a value that a line has assigned. -/
structure Blind (cell : Nat) (store : Store) : Prop where
  /-- the value -/
  environment : ∃ v, store.cells[cell]? = some v ∧ v.IsPlain
  /-- the library of strings -/
  strings : HasStrings store

section Blind

variable {cell : Nat} {store : Store} {t : Table} {call : Call} {frame : Frame}

theorem evalTargets_environment {s : Setting} (line : Nat) (hname : s.name = environmentName) :
    evalTargets call frame (programEnv cell) [targetExpr line s.name] store =
      .done [.cell cell] store := by
  rw [hname, targetExpr, if_pos (by decide), evalTargets]
  rfl

/-- The line that assigns to `_ENV` sets a local variable, and the table of the globals keeps its
fields. -/
theorem execStat_setCell {v : Value} {s : Setting} (line : Nat)
    (hname : s.name = environmentName)
    (hv : evalExpr call frame (programEnv cell) (s.literal.expr line) store = .done [v] store) :
    execStat call frame (programEnv cell) (s.stat line) store = .done (.next, programEnv cell)
      { store with cells := store.cells.setIfInBounds cell v } := by
  rw [Setting.stat, execStat]
  refine (Eval.bind_done _ (evalTargets_environment line hname)).trans ?_
  refine (Eval.bind_done _ (evalList_one hv)).trans ?_
  rw [assignTargets]
  rfl

theorem blind_setCell {old v : Value} (hold : store.cells[cell]? = some old) (hv : v.IsPlain)
    (hstrings : HasStrings store) :
    Blind cell { store with cells := store.cells.setIfInBounds cell v } := by
  obtain ⟨hlt, -⟩ := Array.getElem?_eq_some_iff.mp hold
  refine ⟨⟨v, ?_, hv⟩, hstrings.metatable, hstrings.library⟩
  change (store.cells.setIfInBounds cell v)[cell]? = some v
  rw [Array.getElem?_setIfInBounds_self_of_lt hlt]

/-- Behind the assignment to `_ENV` the globals are out of sight, and as they were. -/
theorem Ready.execStat_environment (h : Ready cell store t) (call : Call) (frame : Frame)
    {s : Setting} (line : Nat) (hname : s.name = environmentName) :
    (execStat call frame (programEnv cell) (s.stat line)).Raises store ∨
      ∃ next, execStat call frame (programEnv cell) (s.stat line) store =
        .done (.next, programEnv cell) next ∧ Blind cell next ∧ next.tables = store.tables := by
  rcases h.evalExpr_cases call frame s.literal line with
    hraises | ⟨v, hv, hvalue⟩
  · exact .inl (raises_assign_value (evalTargets_environment line hname) hraises)
  · have hplain : v.IsPlain := by
      rcases hvalue with ⟨rfl, -⟩ | ⟨rfl, -⟩
      · exact isPlain_value _
      · trivial
    exact .inr ⟨_, execStat_setCell line hname hv, blind_setCell h.environment hplain h.strings,
      rfl⟩

namespace Blind

/-- The names that the lines ask for are not found. -/
theorem evalExpr_name (h : Blind cell store) (call : Call) (frame : Frame) {x : String}
    (hx : x ∈ ["_G", "math", "huge"]) (hne : x ≠ environmentName) (line : Nat) :
    (evalExpr call frame (programEnv cell) (.name x line)).Raises store ∨
      evalExpr call frame (programEnv cell) (.name x line) store = .done [.nil] store := by
  obtain ⟨v, hcell, hv⟩ := h.environment
  have hlocal : readLocal (programEnv cell) environmentName store = .done v store := by
    change Ending.done ((store.cells[cell]?).getD .nil) store = _
    rw [hcell]
    rfl
  -- texts have methods, but none of these names
  have hname : (index call (frame.at line) v (.text x)).Raises store ∨
      index call (frame.at line) v (.text x) store = .done .nil store := by
    cases v with
    | nil => exact .inl (raises_index_nil ..)
    | number n => exact .inl (raises_index_number ..)
    | string s => exact .inr (h.strings.index_string _ _ s x hx)
    | _ => cases hv
  have hread : readName call frame (programEnv cell) x line store =
      index call (frame.at line) v (.text x) store := by
    rw [readName, lookup_programEnv hne]
    exact Eval.bind_done _ hlocal
  rw [evalExpr]
  rcases hname with ⟨e, next, hraises⟩ | hnil
  · exact .inl (.bind ⟨e, next, hread.trans hraises⟩ _)
  · exact .inr (Eval.bind_done _ (hread.trans hnil))

theorem readLocal (h : Blind cell store) :
    ∃ v, v.IsPlain ∧ Lua.readLocal (programEnv cell) environmentName store = .done v store := by
  obtain ⟨v, hcell, hv⟩ := h.environment
  refine ⟨v, hv, ?_⟩
  change Ending.done ((store.cells[cell]?).getD .nil) store = _
  rw [hcell]
  rfl

theorem raises_field (h : Blind cell store) (line : Nat) :
    (evalExpr call frame (programEnv cell)
      (.index (.name "math" line) (.string "huge".toUTF8) line)).Raises store := by
  rw [evalExpr]
  rcases h.evalExpr_name call frame (x := "math") (by simp) (by decide) line
    with hraises | hnil
  · exact hraises.bind _
  · refine .behind ?_ hnil
    refine .behind ((raises_index_nil ..).bind _) (?_ : _ = Ending.done [.text "huge"] store)
    rw [evalExpr]
    rfl

/-- Infinity is not found. -/
theorem evalExpr_cases (h : Blind cell store) (call : Call) (frame : Frame) (ℓ : Literal)
    (line : Nat) :
    (evalExpr call frame (programEnv cell) (ℓ.expr line)).Raises store ∨
      evalExpr call frame (programEnv cell) (ℓ.expr line) store = .done [ℓ.value] store := by
  cases ℓ with
  | huge negative =>
    left
    cases negative with
    | false => exact h.raises_field line
    | true =>
      change (evalExpr call frame _ (.unary .minus _ line)).Raises store
      rw [evalExpr]
      exact (h.raises_field line).bind _
  | _ => exact .inr (evalExpr_constant rfl line)

/-- There is no field to assign to. -/
theorem evalTargets_cases (h : Blind cell store) (call : Call) (frame : Frame) {name : String}
    (hname : name ≠ environmentName) (line : Nat) :
    (evalTargets call frame (programEnv cell) [targetExpr line name]).Raises store ∨
      ∃ v, v.IsPlain ∧ evalTargets call frame (programEnv cell) [targetExpr line name] store =
        .done [.field v (.text name)] store := by
  unfold targetExpr
  split
  · obtain ⟨v, hv, hread⟩ := h.readLocal
    refine .inr ⟨v, hv, ?_⟩
    rw [evalTargets, lookup_programEnv hname]
    exact (Eval.bind_done _ hread).trans rfl
  · rcases h.evalExpr_name call frame (x := "_G") (by simp) (by decide) line
      with hraises | hnil
    · left
      rw [evalTargets]
      exact (hraises.bind _).bind _
    · exact .inr ⟨.nil, trivial, evalTargets_index line hnil name⟩

/-- Every line raises an error, unless it is one more assignment to `_ENV`, which no line has a way
to undo. -/
theorem execStat_cases (h : Blind cell store) (call : Call) (frame : Frame) (s : Setting)
    (line : Nat) :
    (execStat call frame (programEnv cell) (s.stat line)).Raises store ∨
      s.name = environmentName ∧
        ∃ next, execStat call frame (programEnv cell) (s.stat line) store =
          .done (.next, programEnv cell) next ∧ Blind cell next ∧ next.tables = store.tables := by
  by_cases hname : s.name = environmentName
  · obtain ⟨old, hold, -⟩ := h.environment
    rcases h.evalExpr_cases call frame s.literal line with hraises | hv
    · exact .inl (raises_assign_value (evalTargets_environment line hname) hraises)
    · exact .inr ⟨hname, _, execStat_setCell line hname hv,
        blind_setCell hold (isPlain_value _) h.strings, rfl⟩
  · left
    rcases h.evalTargets_cases call frame hname line with
      hraises | ⟨v, hv, htarget⟩
    · exact raises_assign_target hraises
    · rcases h.evalExpr_cases call frame s.literal line with hraises | hvalue
      · exact raises_assign_value htarget hraises
      · exact raises_assign_field htarget hv hvalue h.strings

/-- No function can be defined. -/
theorem raises_function (h : Blind cell store) {x : String} (hx : x ≠ environmentName)
    (f : Function) (nameLine line : Nat) :
    (execStat call frame (programEnv cell)
      (.assign [.name x nameLine] [.function f] line)).Raises store := by
  obtain ⟨v, hv, hread⟩ := h.readLocal
  have htarget : evalTargets call frame (programEnv cell) [.name x nameLine] store =
      .done [.field v (.text x)] store := by
    rw [evalTargets, lookup_programEnv hx]
    exact (Eval.bind_done _ hread).trans rfl
  exact raises_assign_field htarget hv (evalExpr_function f)
    ⟨h.strings.metatable, h.strings.library⟩

end Blind

/-- What a line does in any case: it raises an error, it assigns to `_ENV`, or it assigns to another
variable — its value, or nothing instead of infinity. -/
theorem Ready.execStat_cases (h : Ready cell store t) (call : Call) (frame : Frame) (s : Setting)
    (line : Nat) :
    (execStat call frame (programEnv cell) (s.stat line)).Raises store ∨
      (s.name = environmentName ∧
        ∃ next, execStat call frame (programEnv cell) (s.stat line) store =
          .done (.next, programEnv cell) next ∧ Blind cell next ∧ next.tables = store.tables) ∨
      (s.name ≠ environmentName ∧ Ready.holder t s.name = .table globalsRef ∧
        ∃ v, execStat call frame (programEnv cell) (s.stat line) store =
            .done (.next, programEnv cell) (store.setGlobal s.name v) ∧ v.IsPlain ∧
          (v = s.literal.value ∧
              (s.literal.isHuge = true → t.getText "math" = .table (libraryRef "math")) ∨
            v = .nil ∧ s.literal.isHuge = true)) := by
  by_cases hname : s.name = environmentName
  · -- an assignment to the variable that holds the globals
    rcases h.execStat_environment call frame line hname with hraises | hnext
    · exact .inl hraises
    · exact .inr (.inl ⟨hname, hnext⟩)
  · by_cases hself : Ready.holder t s.name = .table globalsRef
    · -- the field is one of the globals, and the literal decides
      rcases h.evalExpr_cases call frame s.literal line with
        hraises | ⟨v, hv, hvalue⟩
      · exact .inl (raises_assign_value (h.evalTargets call frame hname line) hraises)
      · have htarget := h.evalTargets call frame hname line
        rw [hself] at htarget
        have hplain : v.IsPlain := by
          rcases hvalue with ⟨rfl, -⟩ | ⟨rfl, -⟩
          · exact isPlain_value _
          · trivial
        exact .inr (.inr ⟨hname, hself, v, execStat_assign line htarget hv h.globals h.metatable,
          hplain, hvalue⟩)
    · -- the field is one of what has taken the place of the globals
      left
      apply h.execStat_raises s line hname
      unfold Ready.holder at hself ⊢
      split
      · rename_i hidentifier
        exact absurd (if_pos hidentifier) hself
      · rename_i hidentifier
        rw [if_neg hidentifier] at hself
        exact h.self.resolve_left hself

end Blind

/-! ## Line after line -/

/-- A state between two lines: the globals are in sight or not. -/
def Between (cell : Nat) (store : Store) (t : Table) : Prop :=
  Ready cell store t ∨ Blind cell store ∧ store.tables[globalsRef]? = some t

section Lines

variable {cell : Nat} {store : Store} {t : Table} {call : Call} {frame : Frame}

theorem Between.globals (h : Between cell store t) : store.tables[globalsRef]? = some t := by
  rcases h with h | h
  · exact h.globals
  · exact h.2

/-- One state comes behind another in which other variables than these have the same values, and
other tables than the globals are the same. -/
structure Behind (cell : Nat) (names : List String) (store : Store) (t : Table) (next : Store)
    (t' : Table) : Prop where
  /-- it is a state between two lines -/
  between : Between cell next t'
  /-- the other variables -/
  values : ∀ x ∉ names, t'.getText x = t.getText x
  /-- the other tables -/
  tables : ∀ {ref : Nat}, globalsRef ≠ ref → next.tables[ref]? = store.tables[ref]?

/-- A line changes no other variable than its own, whether the globals are in sight or not. -/
theorem Between.execStat_cases (h : Between cell store t) (call : Call) (frame : Frame)
    (s : Setting) (line : Nat) :
    (execStat call frame (programEnv cell) (s.stat line)).Raises store ∨
      ∃ next t', execStat call frame (programEnv cell) (s.stat line) store =
          .done (.next, programEnv cell) next ∧ Behind cell [s.name] store t next t' := by
  rcases h with h | ⟨hblind, ht⟩
  · rcases h.execStat_cases call frame s line with
      hraises | ⟨-, next, hnext, hblind, htables⟩ | ⟨-, -, v, hnext, hv, -⟩
    · exact .inl hraises
    · have hglobals : next.tables[globalsRef]? = some t := by rw [htables, h.globals]
      exact .inr ⟨next, t, hnext, .inr ⟨hblind, hglobals⟩, fun _ _ => rfl, fun _ => by rw [htables]⟩
    · refine .inr ⟨_, _, hnext, .inl (h.setGlobal s.name hv), fun x hx => ?_, fun hne => ?_⟩
      · rw [Table.getText_setText, if_neg fun heq => hx (List.mem_singleton.mpr heq.symm)]
      · rw [Store.table_setGlobal hne]
  · rcases hblind.execStat_cases call frame s line with
      hraises | ⟨-, next, hnext, hblind, htables⟩
    · exact .inl hraises
    · have hglobals : next.tables[globalsRef]? = some t := by rw [htables, ht]
      exact .inr ⟨next, t, hnext, .inr ⟨hblind, hglobals⟩, fun _ _ => rfl, fun _ => by rw [htables]⟩

/-- **Lines.** Lines of assignments raise an error, or they come to their end and have changed no
other variables than their own. The induction is on the lines, from any state between two of them.
-/
theorem Between.execBlock_cases (h : Between cell store t) (call : Call) (frame : Frame)
    (settings : List Setting) (rest : List Stat) (line : Nat) :
    (execBlock call frame (programEnv cell) 0 (Setting.stats line settings ++ rest)).Raises store ∨
      ∃ next t', execBlock call frame (programEnv cell) 0
          (Setting.stats line settings ++ rest) store =
            execBlock call frame (programEnv cell) 0 rest next ∧
        Behind cell (settings.map Setting.name) store t next t' := by
  induction settings generalizing store t line with
  | nil => exact .inr ⟨store, t, rfl, h, fun _ _ => rfl, fun _ => rfl⟩
  | cons s settings ih =>
    rcases h.execStat_cases call frame s line with
      hraises | ⟨middle, u, hstat, hmiddle⟩
    · exact .inl (execBlock_raises hraises _)
    have hstep : execBlock call frame (programEnv cell) 0
        (Setting.stats line (s :: settings) ++ rest) store =
          execBlock call frame (programEnv cell) 0 (Setting.stats (line + 1) settings ++ rest)
            middle := execBlock_next hstat rfl
    rcases ih hmiddle.between (line + 1) with ⟨e, last, hraises⟩ | ⟨next, t', hrun, hnext⟩
    · exact .inl ⟨e, last, hstep.trans hraises⟩
    · refine .inr ⟨next, t', hstep.trans hrun, hnext.between, fun x hx => ?_, fun hne => ?_⟩
      · rw [List.map_cons, List.mem_cons, not_or] at hx
        rw [hnext.values x hx.2, hmiddle.values x fun hmem => hx.1 (List.mem_singleton.mp hmem)]
      · rw [hnext.tables hne, hmiddle.tables hne]

/-- Lines that have come to their end have changed no other variables than their own. -/
theorem Between.getText_of_done (h : Between cell store t) {settings : List Setting} {line : Nat}
    {env : Env} {next : Store} {t' : Table}
    (hrun : execBlock call frame (programEnv cell) 0 (Setting.stats line settings) store =
      .done (.next, env) next) (ht' : next.tables[globalsRef]? = some t') {x : String}
    (hx : x ∉ settings.map Setting.name) : t'.getText x = t.getText x := by
  rcases h.execBlock_cases call frame settings [] line with
    hraises | ⟨last, u, hlast, hbehind⟩
  · rw [List.append_nil] at hraises
    exact absurd hrun hraises.not_done
  · rw [List.append_nil, execBlock, hrun] at hlast
    cases hlast
    rw [hbehind.between.globals] at ht'
    cases ht'
    exact hbehind.values x hx

end Lines

/-! ## Before the first line -/

/-- A new engine is ready for the first line, with all that the lines use in its place. -/
theorem ready_opened (body : List Stat) : Ready 0 (Store.start.opened body) globals := by
  refine ⟨rfl, start_globals, globals_metatable, .inl globals_self, .inl globals_math, start_math,
    start_strings.metatable, start_strings.library⟩

end FeatureTransform
