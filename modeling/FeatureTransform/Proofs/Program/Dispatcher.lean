import FeatureTransform.Lua.Host
import FeatureTransform.Program
import FeatureTransform.Proofs.Lua.Interchange
import FeatureTransform.Proofs.Lua.Run

/-!
# The dispatcher at work

The dispatcher decodes a record, hands it to the script and encodes what comes back. With a script
that hands back what it gets, a record goes out as it is read and settles, and the store only grows:
nothing that a record leaves behind is in the way of the next.
-/

namespace FeatureTransform

open Lua

namespace Dispatcher

/-! ## The functions -/

/-- The value of the record, as the dispatcher asks for it on a line. -/
def decoded (line : Nat) : Expr :=
  .call (.index (.name "json" line) (.string "decode".toUTF8) line) [.name "record" line] line

/-- The writer of the library, as the dispatcher asks for it on a line. -/
def encoder (line : Nat) : Expr := .index (.name "json" line) (.string "encode".toUTF8) line

/-- The statements of the dispatcher behind the first. -/
def written (line : Nat) : List Stat :=
  [.if (.unary .not (.name "result" (line + 2)) (line + 2)) [.return [.nil]] [],
    .return [.call (encoder (line + 5)) [.name "result" (line + 5)] (line + 5)]]

/-- The statements of the dispatcher that begins on a line. -/
def body (line : Nat) : List Stat :=
  .local [("result", .regular)]
    [.call (.name entryPoint (line + 1)) [decoded (line + 1)] (line + 1)] (line + 1) :: written line

/-- The dispatcher that begins on a line. -/
def function (line : Nat) : Function := .mk ["record"] false (body line)

/-- The function that returns what it gets, on a line. -/
def echo (line : Nat) : Function := .mk ["feature"] false [.return [.name "feature" line]]

/-- The functions of the library that the dispatcher calls. -/
structure HasInterchange (t : Table) : Prop where
  /-- the reader -/
  decode : t.getText "decode" = .builtin .jsonDecode
  /-- the writer -/
  encode : t.getText "encode" = .builtin .jsonEncode

/-- A state in which a script that returns what it gets can be called from the dispatcher. -/
structure Linked (store : Store) (cell script : Nat) : Prop where
  /-- the variable of that number holds the global variables -/
  environment : store.cells[cell]? = some (.table globalsRef)
  /-- the function of the script is there and sees them -/
  function : ∃ line, store.closures[script]? = some ⟨echo line, [(environmentName, cell)]⟩
  /-- among them are the function of the script and the library -/
  globals : ∃ t, store.tables[globalsRef]? = some t ∧ t.getText entryPoint = .closure script ∧
    t.getText "json" = .table (libraryRef "json")
  /-- the library is there -/
  library : ∃ t, store.tables[libraryRef "json"]? = some t ∧ HasInterchange t
  /-- arrays can be marked -/
  marker : store.tables[arrayMetaRef]? = some arrayMetatable

theorem Linked.mono {before after : Store} {cell script : Nat} (h : Linked before cell script)
    (hgrows : before.Grows after) : Linked after cell script := by
  obtain ⟨t, ht, hglobals⟩ := h.globals
  obtain ⟨library, hlibrary, hinterchange⟩ := h.library
  obtain ⟨line, hfunction⟩ := h.function
  exact ⟨hgrows.cells h.environment, ⟨line, hgrows.closures hfunction⟩,
    ⟨t, hgrows.tables ht, hglobals⟩, ⟨library, hgrows.tables hlibrary, hinterchange⟩,
    hgrows.tables h.marker⟩

/-- A state in which the dispatcher is the function of that number and can call such a script. -/
def Echoes (dispatcher : Nat) (store : Store) : Prop :=
  ∃ line cell script, Linked store cell script ∧
    store.closures[dispatcher]? = some ⟨function line, [(environmentName, cell)]⟩

/-- What a dispatcher needs goes on to be there while the store grows. -/
theorem Echoes.mono {dispatcher : Nat} {before after : Store} (h : Echoes dispatcher before)
    (hgrows : before.Grows after) : Echoes dispatcher after := by
  obtain ⟨line, cell, script, hlinked, hdispatcher⟩ := h
  exact ⟨line, cell, script, hlinked.mono hgrows, hgrows.closures hdispatcher⟩

/-! ## A call -/

section Call

variable {store next : Store} {call : Call} {callers : List Site} {json : Json} {v : Value}

/-- `json.decode` gives the value of a text, as the reader takes its numbers. -/
theorem run_jsonDecode (hread : Json.WellFormed json) (hdepth : json.depth ≤ Json.maxDepth)
    (hrun : Interchange.decode json.reread store = .done v next) :
    Invocation.run
      { builtin := .jsonDecode, arguments := [.text json.write], call := call
        callers := callers } store = .done [v] next := by
  have htext : Interchange.hostText (.text json.write) = .ok json.write :=
    Interchange.utf8Text_toUTF8 .string json.write
  let inv : Invocation :=
    { builtin := .jsonDecode, arguments := [.text json.write], call := call, callers := callers }
  have hargument : Interchange.hostText (inv.argument 1) = .ok json.write := htext
  change Interchange.decodeArgument inv store = _
  rw [Interchange.decodeArgument, hargument]
  simp only
  rw [Json.read_write hread hdepth]
  exact Eval.bind_done _ hrun

/-- `json.encode` gives the text of a form, and changes nothing. -/
theorem run_jsonEncode (hform : Interchange.encode store v = .ok json) :
    Invocation.run
      { builtin := .jsonEncode, arguments := [v], call := call, callers := callers } store =
        .done [.text json.write] store := by
  let inv : Invocation :=
    { builtin := .jsonEncode, arguments := [v], call := call, callers := callers }
  have hargument : Interchange.encode store (inv.argument 1) = .ok json := hform
  change Interchange.encodeArgument inv store = _
  rw [Interchange.encodeArgument]
  refine (Eval.bind_done _ (Eval.read_apply _ store)).trans ?_
  rw [hargument]
  rfl

/-- The function of the script returns its argument, in any state that has the function. -/
theorem callWithin_echo {depth cell script line : Nat}
    (hcallers : callers.head?.any Site.isNested = false)
    (hscript : store.closures[script]? = some ⟨echo line, [(environmentName, cell)]⟩) :
    callWithin (depth + 1) (.closure script) [v] callers store =
      .done [v] (store.withCell v) := by
  have hvalue : evalExpr (callWithin depth) { varargs := [], callers := callers }
      [("feature", store.cells.size), (environmentName, cell)] (.name "feature" line)
      (store.withCell v) = .done [v] (store.withCell v) :=
    evalExpr_local line rfl (store.cells_withCell v)
  have hbody : execBlock (callWithin depth) _ _ 0 [.return [.name "feature" line]] _ = _ :=
    execBlock_stop (execStat_return_name hvalue) nofun
  exact callWithin_closure hcallers hscript (enter_done (declareAll_one ..) hbody nofun)
    fun _ => rfl

end Call

/-! ### The body -/

section Body

variable {store : Store} {cell script record : Nat} {json : Json}

theorem Linked.evalExpr_entryPoint (h : Linked store cell script) (call : Call) (frame : Frame)
    (env : Env) (hcell : env.lookup environmentName = some cell)
    (hname : env.lookup entryPoint = none) (line : Nat) :
    evalExpr call frame env (.name entryPoint line) store = .done [.closure script] store := by
  obtain ⟨t, ht, hscript, -⟩ := h.globals
  exact evalExpr_global line ⟨⟨cell, hcell, h.environment⟩, ht⟩ hname hscript nofun

theorem Linked.evalExpr_library (h : Linked store cell script) (call : Call) (frame : Frame)
    (env : Env) (hcell : env.lookup environmentName = some cell)
    (hname : env.lookup "json" = none) (line : Nat) :
    evalExpr call frame env (.name "json" line) store =
      .done [.table (libraryRef "json")] store := by
  obtain ⟨t, ht, -, hlibrary⟩ := h.globals
  exact evalExpr_global line ⟨⟨cell, hcell, h.environment⟩, ht⟩ hname hlibrary nofun

/-- The record is decoded by the library that was there before any program, as no line has replaced
it. -/
theorem Linked.evalExpr_decoded (h : Linked store cell script) (depth : Nat) (frame : Frame)
    (htext : store.cells[record]? = some (.text json.write)) (hjson : json.WellFormed)
    (hdepth : json.depth ≤ Json.maxDepth) (hsmall : json.text.length < 2 ^ 60) (line : Nat) :
    ∃ v next, Interchange.Decoded json.reread store v next ∧
      evalExpr (callWithin (depth + 1)) frame [("record", record), (environmentName, cell)]
        (decoded line) store = .done [v] next := by
  obtain ⟨library, hlibrary, hinterchange⟩ := h.library
  obtain ⟨v, next, hdecoded⟩ := Interchange.decode_spec json.reread store hjson.reread
    (Json.addressable_of_length json (by omega)).reread (Interchange.marksArrays_of h.marker)
  refine ⟨v, next, hdecoded, ?_⟩
  refine evalExpr_call
    (evalExpr_field line (h.evalExpr_library _ _ _ rfl rfl line) hlibrary hinterchange.decode nofun)
    (evalList_one (evalExpr_local line rfl htext)) ?_
  exact callWithin_builtin rfl (run_jsonDecode hjson hdepth hdecoded.run)

/-- The script gets the record and returns it. Its own variable is new, and the record is the same
table. -/
theorem Linked.evalExpr_result (h : Linked store cell script) (depth : Nat) (frame : Frame)
    (htext : store.cells[record]? = some (.text json.write)) (hjson : json.WellFormed)
    (hdepth : json.depth ≤ Json.maxDepth) (hsmall : json.text.length < 2 ^ 60) (line : Nat) :
    ∃ v middle, Interchange.Decoded json.reread store v middle ∧
      evalExpr (callWithin (depth + 1)) frame [("record", record), (environmentName, cell)]
        (.call (.name entryPoint line) [decoded line] line) store =
          .done [v] (middle.withCell v) := by
  obtain ⟨v, middle, hdecoded, hvalue⟩ := h.evalExpr_decoded depth frame htext hjson hdepth hsmall
    line
  refine ⟨v, middle, hdecoded, ?_⟩
  refine evalExpr_call (h.evalExpr_entryPoint _ _ _ rfl rfl line) (evalList_one hvalue) ?_
  obtain ⟨_, hfunction⟩ := (h.mono hdecoded.grows).function
  exact callWithin_echo rfl hfunction

/-- A result that is true is handed to the writer of the library; only no value and a false one are
answered otherwise. -/
theorem Linked.execBlock_written (h : Linked store cell script) (call : Call) (frame : Frame)
    (env : Env) (hcell : env.lookup environmentName = some cell) (hname : env.lookup "json" = none)
    {result : Nat} {v : Value} (hresult : env.lookup "result" = some result)
    (hv : store.cells[result]? = some v) (htrue : v.isTrue = true) (line : Nat) :
    execBlock call frame env 0 (written line) store =
      .done (.tailCall (.builtin .jsonEncode) [v]
        (siteOf (line + 5) (calleeName (encoder (line + 5)))), env) store := by
  obtain ⟨library, hlibrary, hinterchange⟩ := h.library
  have hencoder : ∀ line, evalExpr call frame env (encoder line) store =
      .done [.builtin .jsonEncode] store := fun line =>
    evalExpr_field line (h.evalExpr_library _ _ _ hcell hname line) hlibrary hinterchange.encode
      nofun
  have hlocal : ∀ line, evalExpr call frame env (.name "result" line) store = .done [v] store :=
    fun line => evalExpr_local line hresult hv
  rw [written, execBlock_next (execStat_if_not (evalExpr_not _ (hlocal _) htrue) rfl) rfl]
  exact execBlock_stop (execStat_return_call (hencoder _) (evalList_one (hlocal _))) nofun

end Body

/-- What is handed to a script that returns what it gets goes out as it is read and settles. The
store only grows, so the next call finds everything in place. -/
theorem Echoes.call {dispatcher : Nat} {store : Store} {json : Json} (h : Echoes dispatcher store)
    (hjson : json.WellFormed) (hdepth : json.depth ≤ Json.maxDepth)
    (hsmall : json.text.length < 2 ^ 60) (hsomething : json ≠ .null ∧ json ≠ .bool false) :
    ∃ next, Lua.call (.closure dispatcher) [.text json.write] [] store =
      .done [.text json.reread.settle.write] next ∧ store.Grows next := by
  -- reading the numbers again makes no `null` and no truth value
  have hreread : json.reread ≠ .null ∧ json.reread ≠ .bool false := by
    obtain ⟨hnull, hfalse⟩ := hsomething
    cases json with
    | null => exact absurd rfl hnull
    | bool b => exact ⟨hnull, hfalse⟩
    | _ => exact ⟨nofun, nofun⟩
  obtain ⟨line, cell, script, hlinked, hdispatcher⟩ := h
  have hrecord := store.grows_withCell (.text json.write)
  -- the record is decoded and handed over in a store with a variable more, that of the record
  obtain ⟨v, middle, hdecoded, hvalue⟩ := (hlinked.mono hrecord).evalExpr_result 99998
    { varargs := [], callers := [] } (store.cells_withCell _) hjson hdepth hsmall
    (line + 1)
  have hargument := middle.grows_withCell v
  have hresult := (middle.withCell v).grows_withCell v
  have hlast := hlinked.mono (hrecord.trans (hdecoded.grows.trans (hargument.trans hresult)))
  -- behind it stands the variable of the result, from which the text is written
  have hwritten := hlast.execBlock_written (callWithin 99999) { varargs := [], callers := [] }
    (("result", (middle.withCell v).cells.size) ::
      [("record", store.cells.size), (environmentName, cell)]) rfl rfl rfl
    ((middle.withCell v).cells_withCell v) (hdecoded.isTrue hreread.1 hreread.2) line
  have hbody := (execBlock_next (execStat_local (line + 1) hvalue) rfl).trans hwritten
  refine ⟨_, callWithin_tail rfl hdispatcher (enter_done (declareAll_one ..) hbody nofun)
    (run_jsonEncode (hdecoded.encode (hargument.trans hresult))), ?_⟩
  exact hrecord.trans (hdecoded.grows.trans (hargument.trans hresult))

end Dispatcher

end FeatureTransform
