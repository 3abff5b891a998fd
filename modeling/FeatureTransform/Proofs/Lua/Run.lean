import FeatureTransform.Lua.Host
import FeatureTransform.Proofs.Lua.Store
import FeatureTransform.Proofs.Text.Split

/-!
# Runs of programs

What one step of a run does when nothing gets in its way: no metamethod is asked, no error is
raised. Each law takes a run apart into the runs of its parts.
-/

namespace FeatureTransform.Lua

variable {store middle next : Store} {call : Call} {frame : Frame} {env : Env}

/-! ## Expressions -/

section Expressions

variable {t : Table} {ref : Nat} {v : Value} {x : String}

theorem evalExpr_local (line : Nat) (hx : env.lookup x = some ref)
    (hv : store.cells[ref]? = some v) :
    evalExpr call frame env (.name x line) store = .done [v] store := by
  have hread : readName call frame env x line store = .done v store := by
    rw [readName, hx]
    change Ending.done ((store.cells[ref]?).getD .nil) store = _
    rw [hv]
    rfl
  rw [evalExpr]
  exact Eval.bind_done _ hread

/-- A key that is in the table itself is found there, and no metatable is asked. -/
theorem index_found {key : Value} {k : Key} (spot : Spot) (ht : store.tables[ref]? = some t)
    (hk : Key.of? key = some k) (hget : t.get k = v) (hv : v ≠ .nil) :
    index call spot (.table ref) key store = .done v store := by
  have hfound : Eval.rawGet ref k store = .done v store := by
    rw [Eval.rawGet_found ht, hget]
  rw [index, maxChain, lookUp]
  · refine (Eval.bind_done _ hfound).trans ?_
    cases v <;> first | exact absurd rfl hv | rfl
  · exact hk

/-- A table without a metatable behaves in no way of its own, whatever event it is. -/
theorem metamethod_table (ht : store.tables[ref]? = some t) (hmeta : t.metatable = none)
    (event : String) : metamethod event (.table ref) store = .done .nil store := by
  have hmetatable : metatableOf (.table ref) store = .done none store := by
    change Ending.done ((store.tables[ref]?).getD .empty).metatable store = _
    rw [ht, Option.getD_some, hmeta]
  rw [metamethod]
  exact Eval.bind_done _ hmetatable

/-- The table of the global variables is in sight. -/
structure SeesGlobals (env : Env) (store : Store) (t : Table) : Prop where
  /-- the variable that holds it is in sight -/
  environment : ∃ ref, env.lookup environmentName = some ref ∧
    store.cells[ref]? = some (.table globalsRef)
  /-- it is this table -/
  globals : store.tables[globalsRef]? = some t

theorem SeesGlobals.mono (h : SeesGlobals env store t) (hgrows : store.Grows next) :
    SeesGlobals env next t := by
  obtain ⟨ref, henv, hcell⟩ := h.environment
  exact ⟨⟨ref, henv, hgrows.cells hcell⟩, hgrows.tables h.globals⟩

theorem SeesGlobals.readLocal (h : SeesGlobals env store t) :
    readLocal env environmentName store = .done (.table globalsRef) store := by
  obtain ⟨ref, henv, hcell⟩ := h.environment
  rw [Lua.readLocal, henv]
  change Ending.done ((store.cells[ref]?).getD .nil) store = _
  rw [hcell]
  rfl

/-- A name that is no local variable is a field of the table of the globals. -/
theorem evalExpr_global (line : Nat) (h : SeesGlobals env store t) (hx : env.lookup x = none)
    (hget : t.getText x = v) (hv : v ≠ .nil) :
    evalExpr call frame env (.name x line) store = .done [v] store := by
  have hread : readName call frame env x line store = .done v store := by
    rw [readName, hx]
    refine (Eval.bind_done _ h.readLocal).trans ?_
    exact index_found _ h.globals rfl hget hv
  rw [evalExpr]
  exact Eval.bind_done _ hread

/-- A field under a name, of a table that has it itself. -/
theorem evalExpr_field {object : Expr} {name : String} (line : Nat)
    (hobject : evalExpr call frame env object store = .done [.table ref] middle)
    (ht : middle.tables[ref]? = some t) (hget : t.getText name = v) (hv : v ≠ .nil) :
    evalExpr call frame env (.index object (.string name.toUTF8) line) store =
      .done [v] middle := by
  rw [evalExpr]
  refine (Eval.bind_done _ hobject).trans ?_
  refine (Eval.bind_done _ (show evalExpr call frame env (.string name.toUTF8) middle =
    .done [.string name.toUTF8] middle by rw [evalExpr]; rfl)).trans ?_
  exact Eval.bind_done _ (index_found _ ht rfl hget hv)

/-- Nothing that is true is so any more when it is negated. -/
theorem evalExpr_not {e : Expr} (line : Nat)
    (he : evalExpr call frame env e store = .done [v] next) (hv : v.isTrue = true) :
    evalExpr call frame env (.unary .not e line) store = .done [.bool false] next := by
  rw [evalExpr]
  refine (Eval.bind_done _ he).trans ?_
  change Ending.done [Value.bool !v.isTrue] next = _
  rw [hv]
  rfl

theorem evalExpr_function (f : Function) :
    evalExpr call frame env (.function f) store =
      .done [.closure store.closures.size] (store.withClosure f env) := by
  rw [evalExpr]
  exact Eval.bind_done _ rfl

end Expressions

/-! ## Calls -/

section Calls

variable {depth : Nat} {arguments vs : List Value} {callers : List Site} {closure : Closure}
  {ref : Nat}

/-- A function is what a call comes to; only for other values a metatable would be asked. -/
theorem Pending.resolve_function (p : Pending) (h : p.callee.isFunction = true) (store : Store) :
    p.resolve maxChain p.callee p.arguments store = .done (p.callee, p.arguments) store := by
  rw [maxChain, Pending.resolve, if_pos h]
  rfl

/-- A call that comes from a call expression is made step by step. The steps are more than one where
a function ends in the call of another. -/
theorem callWithin_eq {f : Value} (hcallers : callers.head?.any Site.isNested = false) :
    callWithin (depth + 1) f arguments callers store =
      Eval.repeatedly (step (callWithin depth))
        { callee := f, arguments := arguments, callers := callers, isTail := false } store := by
  rw [callWithin, hcallers, Bool.false_and]
  rfl

/-- A library function is done in one step of a call. -/
theorem step_builtin (p : Pending) {b : Builtin} (hp : p.callee = .builtin b)
    (hrun : Invocation.run
      { builtin := b, arguments := p.arguments, call := call, callers := p.callers } store =
        .done vs next) :
    step call p store = .done (.inr vs) next := by
  rw [step]
  refine (Eval.bind_done _ (p.resolve_function (by rw [hp]; rfl) store)).trans ?_
  simp only [hp]
  exact Eval.map_done _ hrun

/-- What a call comes to when the body of a function has ended in a signal. -/
def Pending.behind (p : Pending) : Signal → Pending ⊕ List Value
  | .return vs => .inr vs
  | .tailCall callee arguments site =>
    .inl { callee := callee, arguments := arguments, callers := site :: p.frameCallers
           isTail := true }
  | _ => .inr []

/-- A function of the program is entered in one step, and its last signal says what the call comes
to. -/
theorem step_closure (p : Pending) {signal : Signal} (hp : p.callee = .closure ref)
    (hclosure : store.closures[ref]? = some closure)
    (henter : enter call closure p.arguments p.frameCallers store = .done signal next) :
    step call p store = .done (p.behind signal) next := by
  rw [step]
  refine (Eval.bind_done _ (p.resolve_function (by rw [hp]; rfl) store)).trans ?_
  simp only [hp]
  refine (Eval.bind_done _ (show Eval.closure? ref store = .done (some closure) store by
    rw [← hclosure]; rfl)).trans ?_
  refine (Eval.bind_done _ henter).trans ?_
  cases signal <;> rfl

/-- A call of a library function comes to what that gives. -/
theorem callWithin_builtin {b : Builtin} (hcallers : callers.head?.any Site.isNested = false)
    (hrun : Invocation.run
      { builtin := b, arguments := arguments, call := callWithin depth, callers := callers } store =
        .done vs next) :
    callWithin (depth + 1) (.builtin b) arguments callers store = .done vs next := by
  rw [callWithin_eq hcallers]
  exact Eval.repeatedly_once (step_builtin _ rfl hrun)

/-- A call of a function that comes to its end, with or without values to return. -/
theorem callWithin_closure {signal : Signal} (hcallers : callers.head?.any Site.isNested = false)
    (hclosure : store.closures[ref]? = some closure)
    (henter : enter (callWithin depth) closure arguments callers store = .done signal next)
    (hbehind : ∀ p : Pending, p.behind signal = .inr vs) :
    callWithin (depth + 1) (.closure ref) arguments callers store = .done vs next := by
  have hstep := step_closure
    { callee := .closure ref, arguments := arguments, callers := callers, isTail := false } rfl
    hclosure henter
  rw [hbehind] at hstep
  rw [callWithin_eq hcallers]
  exact Eval.repeatedly_once hstep

/-- A call of a function that ends with the call of a library function. That call takes a second
step and no further depth. -/
theorem callWithin_tail {b : Builtin} {others : List Value} {site : Site}
    (hcallers : callers.head?.any Site.isNested = false)
    (hclosure : store.closures[ref]? = some closure)
    (henter : enter (callWithin depth) closure arguments callers store =
      .done (.tailCall (.builtin b) others site) middle)
    (hrun : Invocation.run
      { builtin := b, arguments := others, call := callWithin depth
        callers := site :: callers } middle = .done vs next) :
    callWithin (depth + 1) (.closure ref) arguments callers store = .done vs next := by
  rw [callWithin_eq hcallers]
  have hfirst := step_closure
    { callee := .closure ref, arguments := arguments, callers := callers, isTail := false } rfl
    hclosure henter
  have hsecond := step_builtin
    { callee := .builtin b, arguments := others, callers := site :: callers, isTail := true } rfl
    hrun
  exact Eval.repeatedly_twice hfirst hsecond

/-- A call in an expression: function and arguments are evaluated from left to right, and then the
call is made. -/
theorem evalExpr_call {callee : Expr} {exprs : List Expr} {line : Nat} {f : Value}
    {functions : Store} (hf : evalExpr call frame env callee store = .done [f] functions)
    (harguments : evalList call frame env exprs functions = .done arguments middle)
    (hcall : call f arguments (siteOf line (calleeName callee) :: frame.callers) middle =
      .done vs next) :
    evalExpr call frame env (.call callee exprs line) store = .done vs next := by
  rw [evalExpr]
  refine (Eval.bind_done _ hf).trans ?_
  exact (Eval.bind_done _ harguments).trans hcall

end Calls

/-! ## Statements -/

section Statements

variable {body rest : List Stat} {stat : Stat} {env' : Env} {signal : Signal}

/-- A block without jumps is run once, as only a jump back would run it again. -/
theorem withJumps_done {run : Nat → Env → Eval (Signal × Env)}
    (hrun : run 0 env store = .done (signal, env') next) (hsignal : ∀ l, signal ≠ .goto l) :
    withJumps body env run store = .done (signal, env') next := by
  rw [withJumps]
  apply Eval.repeatedly_once
  refine (Eval.bind_done _ hrun).trans ?_
  cases signal <;> first | exact absurd rfl (hsignal _) | rfl

/-- A statement that is done goes on to those behind it, with the variables that it has declared. -/
theorem execBlock_next (hstat : execStat call frame env stat store = .done (.next, env') middle)
    (hclosed : closedBy? stat = none) :
    execBlock call frame env 0 (stat :: rest) store =
      execBlock call frame env' 0 rest middle := by
  rw [execBlock]
  refine (Eval.bind_done _ hstat).trans ?_
  rw [hclosed]

/-- An error of a statement is an error of its block, and what stands behind it is not run. -/
theorem execBlock_raises (hstat : (execStat call frame env stat).Raises store)
    (rest : List Stat) :
    (execBlock call frame env 0 (stat :: rest)).Raises store := by
  rw [execBlock]
  exact hstat.bind _

/-- A statement that does not go on to the next ends its block. -/
theorem execBlock_stop (hstat : execStat call frame env stat store = .done (signal, env') next)
    (hsignal : signal ≠ .next) :
    execBlock call frame env 0 (stat :: rest) store = .done (signal, env') next := by
  rw [execBlock]
  refine (Eval.bind_done _ hstat).trans ?_
  cases signal <;> first | exact absurd rfl hsignal | rfl

theorem declareAll_one (env : Env) (x : String) (v : Value) (store : Store) :
    declareAll env [(x, v)] store =
      .done ((x, store.cells.size) :: env) (store.withCell v) := by
  rw [declareAll]
  exact (Eval.bind_done _ rfl).trans rfl

/-- A declaration of one variable, which is in sight behind it and not in its own value. -/
theorem execStat_local {e : Expr} {x : String} {vs : List Value} (line : Nat)
    (hvalue : evalExpr call frame env e store = .done vs middle) :
    execStat call frame env (.local [(x, .regular)] [e] line) store =
      .done (.next, (x, middle.cells.size) :: env) (middle.withCell (firstOf vs)) := by
  have hpairs : pairUp ([(x, Attribute.regular)].map Prod.fst) vs = [(x, firstOf vs)] := by
    cases vs <;> rfl
  rw [execStat]
  refine (Eval.bind_done _ (evalList_one hvalue)).trans ?_
  simp only [hpairs]
  exact (Eval.bind_done _ (declareAll_one ..)).trans rfl

/-- A branch that is not taken, without another one, changes nothing but what the condition has. -/
theorem execStat_if_not {e : Expr} {yes : List Stat} {vs : List Value}
    (hvalue : evalExpr call frame env e store = .done vs next)
    (hfalse : (firstOf vs).isTrue = false) :
    execStat call frame env (.if e yes []) store = .done (.next, env) next := by
  have hcondition : evalValue call frame env e store = .done (firstOf vs) next :=
    Eval.map_done _ hvalue
  have hnone : withJumps [] env (fun skipped env => execBlock call frame env skipped []) next =
      .done (.next, env) next :=
    withJumps_done (by rw [execBlock]; rfl) nofun
  rw [execStat]
  refine (Eval.bind_done _ hcondition).trans ?_
  simp only [hfalse, Bool.false_eq_true, if_false]
  exact (Eval.bind_done _ hnone).trans rfl

/-- A function that returns the value of a variable. -/
theorem execStat_return_name {x : String} {line : Nat} {vs : List Value}
    (hvalue : evalExpr call frame env (.name x line) store = .done vs next) :
    execStat call frame env (.return [.name x line]) store = .done (.return vs, env) next := by
  rw [execStat]
  · exact (Eval.bind_done _ (evalList_one hvalue)).trans rfl
  · nofun
  · nofun

/-- A function that returns what another one returns. -/
theorem execStat_return_call {callee : Expr} {exprs : List Expr} {line : Nat} {f : Value}
    {arguments : List Value} {functions : Store}
    (hf : evalExpr call frame env callee store = .done [f] functions)
    (harguments : evalList call frame env exprs functions = .done arguments next) :
    execStat call frame env (.return [.call callee exprs line]) store =
      .done (.tailCall f arguments (siteOf line (calleeName callee)), env) next := by
  rw [execStat]
  exact (Eval.bind_done _ hf).trans ((Eval.bind_done _ harguments).trans rfl)

end Statements

/-! ## Assignments to global variables -/

/-- The store with the value of a global variable set. -/
def Store.setGlobal (store : Store) (x : String) (v : Value) : Store :=
  { store with tables := store.tables.modify globalsRef fun t => t.setText x v }

section Assignments

variable {t : Table} {x : String}

/-- A global variable that has been set is a field of the table of the globals. -/
theorem Store.globals_setGlobal (ht : store.tables[globalsRef]? = some t) (x : String) (v : Value) :
    (store.setGlobal x v).tables[globalsRef]? = some (t.setText x v) := by
  rw [setGlobal, Array.getElem?_modify, if_pos rfl, ht]
  rfl

/-- Setting a global variable leaves all other tables alone. -/
theorem Store.table_setGlobal {ref : Nat} (hne : globalsRef ≠ ref) (x : String) (v : Value) :
    (store.setGlobal x v).tables[ref]? = store.tables[ref]? := by
  rw [setGlobal, Array.getElem?_modify, if_neg hne]

theorem SeesGlobals.setGlobal (h : SeesGlobals env store t) (x : String) (v : Value) :
    SeesGlobals env (store.setGlobal x v) (t.setText x v) :=
  ⟨h.environment, Store.globals_setGlobal h.globals x v⟩

/-- A table without a metatable takes every key itself, be it new or not. -/
theorem assign_global (spot : Spot) (ht : store.tables[globalsRef]? = some t)
    (hmeta : t.metatable = none) (x : String) (v : Value) :
    assign call spot (.table globalsRef) (.text x) v store = .done () (store.setGlobal x v) := by
  have hfound : Eval.rawGet globalsRef (.text x) store = .done (t.getText x) store :=
    Eval.rawGet_found ht _
  rw [assign, maxChain, assignAlong]
  · refine (Eval.bind_done _ hfound).trans ?_
    cases t.getText x with
    | nil => exact Eval.bind_done _ (metamethod_table ht hmeta _)
    | _ => rfl
  · rfl

/-- A global variable is a field of the table of the global variables. -/
theorem evalTargets_name (h : SeesGlobals env store t) (hx : env.lookup x = none) (line : Nat) :
    evalTargets call frame env [.name x line] store =
      .done [.field (.table globalsRef) (.text x)] store := by
  rw [evalTargets, hx]
  exact (Eval.bind_done _ h.readLocal).trans rfl

/-- What an index names is a field, too. -/
theorem evalTargets_index {object : Expr} {v : Value} (line : Nat)
    (hobject : evalExpr call frame env object store = .done [v] store) (x : String) :
    evalTargets call frame env [.index object (.string x.toUTF8) line] store =
      .done [.field v (.text x)] store := by
  have hkey : evalValue call frame env (.string x.toUTF8) store = .done (.text x) store := by
    rw [evalValue, evalExpr]
    rfl
  rw [evalTargets]
  refine (Eval.bind_done _ (Eval.map_done _ hobject)).trans ?_
  refine (Eval.bind_done _ hkey).trans ?_
  rfl

/-- An assignment of one value to one global variable. The target is evaluated first, and so the
value cannot lead it elsewhere. -/
theorem execStat_assign {target e : Expr} {vs : List Value} (line : Nat)
    (htarget : evalTargets call frame env [target] store =
      .done [.field (.table globalsRef) (.text x)] store)
    (hvalue : evalExpr call frame env e store = .done vs middle)
    (ht : middle.tables[globalsRef]? = some t) (hmeta : t.metatable = none) :
    execStat call frame env (.assign [target] [e] line) store =
      .done (.next, env) (middle.setGlobal x (firstOf vs)) := by
  have hassign : assignTargets call (frame.at line) [.field (.table globalsRef) (.text x)] vs
      middle = .done () (middle.setGlobal x (firstOf vs)) := by
    rw [assignTargets]
    exact (Eval.bind_done _ rfl).trans (assign_global _ ht hmeta x _)
  rw [execStat]
  refine (Eval.bind_done _ htarget).trans ?_
  refine (Eval.bind_done _ (evalList_one hvalue)).trans ?_
  exact (Eval.bind_done _ hassign).trans rfl

/-- A function statement sets a global variable to a function that sees what is in sight there. -/
theorem execStat_function (h : SeesGlobals env store t) (hmeta : t.metatable = none)
    (hx : env.lookup x = none) (f : Function) (nameLine line : Nat) :
    execStat call frame env (.assign [.name x nameLine] [.function f] line) store =
      .done (.next, env) ((store.withClosure f env).setGlobal x (.closure store.closures.size)) :=
  execStat_assign line (evalTargets_name h hx nameLine) (evalExpr_function f) h.globals hmeta

end Assignments

/-! ## Functions -/

theorem enter_done {closure : Closure} {arguments : List Value} {callers : List Site}
    {inner outer : Env} {signal : Signal}
    (hdeclare : declareAll closure.env (pairUp closure.function.parameters arguments) store =
      .done inner middle)
    (hbody : execBlock call
      { varargs := if closure.function.isVariadic then
          arguments.drop closure.function.parameters.length else []
        callers := callers } inner 0 closure.function.body middle = .done (signal, outer) next)
    (hsignal : ∀ l, signal ≠ .goto l) :
    enter call closure arguments callers store = .done signal next := by
  rw [enter]
  refine (Eval.bind_done _ hdeclare).trans ?_
  exact Eval.map_done _ (withJumps_done hbody hsignal)

/-! ## Programs -/

/-- The state in which the statements of a program begin: the globals are in sight, and the program
is a function. -/
def Store.opened (store : Store) (body : List Stat) : Store :=
  (store.withCell (.table globalsRef)).withClosure (.mk [] true body)
    [(environmentName, store.cells.size)]

/-- The variables in sight where a program begins. -/
def Store.outermost (store : Store) : Env := [(environmentName, store.cells.size)]

/-- A program whose statements come to their end without declaring variables. -/
theorem runProgram_done {body : List Stat}
    (hbody : execBlock (callWithin 99999) { varargs := [], callers := [] } store.outermost 0 body
      (store.opened body) = .done (.next, store.outermost) next) :
    runProgram body store = .done () next := by
  have hcall : Lua.call (.closure store.closures.size) [] [] (store.opened body) =
      .done [] next :=
    callWithin_closure rfl ((store.withCell _).closures_withClosure ..)
      (enter_done (by rw [Closure.function]; rfl) hbody nofun) fun _ => rfl
  rw [runProgram]
  refine (Eval.bind_done _ rfl).trans ?_
  refine (Eval.bind_done _ rfl).trans ?_
  exact Eval.bind_done _ hcall

theorem evaluate_done {text : String} {body : List Stat}
    (htext : readProgram text = .ok body)
    (hbody : execBlock (callWithin 99999) { varargs := [], callers := [] } store.outermost 0 body
      (store.opened body) = .done (.next, store.outermost) next) :
    evaluate text store = (.ok (), next) := by
  rw [evaluate, htext]
  simp only [outcome, runProgram_done hbody]

theorem enter_raises {closure : Closure} {arguments : List Value} {callers : List Site}
    {inner : Env}
    (hdeclare : declareAll closure.env (pairUp closure.function.parameters arguments) store =
      .done inner middle)
    (hbody : (execBlock call
      { varargs := if closure.function.isVariadic then
          arguments.drop closure.function.parameters.length else []
        callers := callers } inner 0 closure.function.body).Raises middle) :
    (enter call closure arguments callers).Raises store := by
  rw [enter]
  refine .behind ?_ hdeclare
  exact .bind (.repeatedly (hbody.bind _)) _

theorem callWithin_raises {depth ref : Nat} {arguments : List Value} {callers : List Site}
    {closure : Closure} (hcallers : callers.head?.any Site.isNested = false)
    (hclosure : store.closures[ref]? = some closure)
    (henter : (enter (callWithin depth) closure arguments callers).Raises store) :
    (callWithin (depth + 1) (.closure ref) arguments callers).Raises store := by
  let p : Pending :=
    { callee := .closure ref, arguments := arguments, callers := callers, isTail := false }
  have hstep : (step (callWithin depth) p).Raises store := by
    rw [step]
    refine .behind ?_ (p.resolve_function rfl store)
    refine .behind (henter.bind _) (?_ : Eval.closure? ref store = .done (some closure) store)
    rw [← hclosure]
    rfl
  obtain ⟨e, next, hraises⟩ := hstep.repeatedly
  exact ⟨e, next, (callWithin_eq hcallers).trans hraises⟩

/-- A program whose statements raise an error is not evaluated, and what it has done so far remains.
-/
theorem evaluate_raises {text : String} {body : List Stat} (htext : readProgram text = .ok body)
    (hbody : (execBlock (callWithin 99999) { varargs := [], callers := [] } store.outermost 0
      body).Raises (store.opened body)) : (evaluate text store).1 ≠ .ok () := by
  have hcall : (Lua.call (.closure store.closures.size) [] []).Raises (store.opened body) :=
    callWithin_raises rfl ((store.withCell _).closures_withClosure ..)
      (enter_raises (by rw [Closure.function]; rfl) hbody)
  obtain ⟨e, next, hrun⟩ : (runProgram body).Raises store := by
    rw [runProgram]
    refine .behind ?_ rfl
    exact .behind (hcall.bind _) rfl
  rw [evaluate, htext]
  simp only [outcome, hrun]
  split <;> nofun

/-! ## The engine -/

theorem engine_evaluate {text : String} (h : evaluate text store = (.ok (), next)) :
    engine.evaluate text store = (.ok (), next) := by
  simp only [engine, h]
  rfl

theorem engine_global {t : Table} {x : String} {v : Value}
    (ht : store.tables[globalsRef]? = some t) (hget : t.getText x = v) (hv : v ≠ .nil) :
    engine.global x store = (.ok (some v), store) := by
  simp only [engine, global, ht, Option.getD_some, hget]

/-- The value of a global variable is what the table of the globals has, since that table has no
metatable to ask. -/
theorem getD_global {t : Table} (ht : store.tables[globalsRef]? = some t) (x : String) :
    (global x store).getD .nil = t.getText x := by
  rw [global, ht, Option.getD_some]
  cases t.getText x <;> rfl

theorem callForText_closure (ref : Nat) (arguments : List String) (store : Store) :
    callForText (.closure ref) arguments store =
      match outcome (Lua.call (.closure ref) (arguments.map Value.text) []) store with
      | (.ok vs, store) => (resultText (firstOf vs), store)
      | (.error e, store) => (.error e, store) := rfl

/-- A function that is called with a text and gives a text. -/
theorem engine_call {ref : Nat} {s t : String}
    (h : Lua.call (.closure ref) [.text s] [] store = .done [.text t] next) :
    engine.call (.closure ref) [s] store = (.ok (some t), next) := by
  have htext : resultText (.text t) = .ok (some t) := by
    change (((utf8Text .str t.toUTF8).map some).mapError HostError.message) = _
    rw [utf8Text, Utf8.read_toUTF8]
    rfl
  have houtcome : outcome (Lua.call (.closure ref) [.text s] []) store = (.ok [.text t], next) := by
    rw [outcome, h]
  have hcall : callForText (.closure ref) [s] store = (.ok (some t), next) := by
    rw [callForText_closure, List.map_singleton, houtcome]
    exact congrArg (·, next) htext
  simp only [engine, hcall]
  rfl

end FeatureTransform.Lua
