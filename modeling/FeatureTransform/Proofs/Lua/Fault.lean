import FeatureTransform.Proofs.Lua.Run
import FeatureTransform.Proofs.Lua.Start

/-!
# What is asked of values that are no tables

A string, a number and no value at all take no fields: an assignment to one raises an error. Only a
string has fields to be read, which are those of its library.
-/

namespace FeatureTransform.Lua

variable {store : Store} {t : Table} {ref : Nat}

/-! ## Tables without metatables -/

/-- A table without a metatable has a field or it has not, and nothing else is asked. -/
theorem lookUp_table (call : Call) (spot : Spot) (ht : store.tables[ref]? = some t)
    (hmeta : t.metatable = none) (x : String) (chain : Nat) :
    lookUp call spot (.text x) (chain + 1) (.table ref) store = .done (t.getText x) store := by
  have hfound : Eval.rawGet ref (.text x) store = .done (t.getText x) store :=
    Eval.rawGet_found ht _
  rw [lookUp]
  · refine (Eval.bind_done _ hfound).trans ?_
    cases t.getText x with
    | nil => exact Eval.bind_done _ (metamethod_table ht hmeta _)
    | _ => rfl
  · rfl

theorem index_table (call : Call) (spot : Spot) (ht : store.tables[ref]? = some t)
    (hmeta : t.metatable = none)
    (x : String) : index call spot (.table ref) (.text x) store = .done (t.getText x) store :=
  lookUp_table call spot ht hmeta x (maxChain - 1)

/-! ## Other values -/

/-- No value, a number or a string. -/
def Value.IsPlain : Value → Prop
  | .nil | .number _ | .string _ => True
  | _ => False

/-- The library that strings have for their fields is in its place, and the names that programs ask
for are not in it. -/
structure HasStrings (store : Store) : Prop where
  /-- the metatable of strings -/
  metatable : store.tables[stringMetaRef]? = some stringMetatable
  /-- the library -/
  library : ∃ t, store.tables[libraryRef "string"]? = some t ∧ t.metatable = none ∧
    ∀ x ∈ ["_G", "math", "huge"], t.getText x = .nil

theorem raises_index_nil (call : Call) (spot : Spot) (key : Value) (store : Store) :
    (index call spot .nil key).Raises store := by
  rw [index, maxChain, lookUp]
  · exact ⟨_, _, rfl⟩
  · simp
  · simp

theorem raises_index_number (call : Call) (spot : Spot) (n : Number) (key : Value) (store : Store) :
    (index call spot (.number n) key).Raises store := by
  rw [index, maxChain, lookUp]
  · exact ⟨_, _, rfl⟩
  · simp
  · simp

theorem HasStrings.metamethod_string (h : HasStrings store) (event : String) (s : ByteArray) :
    metamethod event (.string s) store = .done (stringMetatable.getText event) store := by
  have hmetatable : metatableOf (.string s) store = .done (some stringMetaRef) store := rfl
  rw [metamethod]
  exact (Eval.bind_done _ hmetatable).trans (Eval.rawGet_found h.metatable _)

/-- The names that programs ask for are no fields of strings, so that reading one gives no value and
raises nothing. -/
theorem HasStrings.index_string (h : HasStrings store) (call : Call) (spot : Spot) (s : ByteArray)
    (x : String) (hx : x ∈ ["_G", "math", "huge"]) :
    index call spot (.string s) (.text x) store = .done .nil store := by
  obtain ⟨t, ht, hmeta, hnone⟩ := h.library
  have hlibrary := lookUp_table call spot ht hmeta x 1998
  have hget : stringMetatable.getText "__index" = .table (libraryRef "string") := by
    simp [stringMetatable, Table.getText_setText]
  have hstring := h.metamethod_string "__index" s
  rw [hget] at hstring
  rw [hnone x hx] at hlibrary
  rw [index, maxChain, lookUp]
  · refine (Eval.bind_done _ rfl).trans ?_
    exact (Eval.bind_done _ hstring).trans hlibrary
  · simp
  · simp

theorem HasStrings.metamethod_plain (h : HasStrings store) {event : String}
    (hevent : event ≠ "__index") {v : Value} (hv : v.IsPlain) :
    metamethod event v store = .done .nil store := by
  cases v with
  | nil => rfl
  | number n => rfl
  | string s =>
    have hget : stringMetatable.getText event = .nil := by
      rw [stringMetatable, Table.getText_setText, if_neg hevent.symm, Table.getText_empty]
    rw [h.metamethod_string, hget]
  | _ => cases hv

/-- Nothing is assigned to a field of what is no table: neither numbers nor strings nor no value
have a metamethod for it. -/
theorem HasStrings.raises_assign (h : HasStrings store) (call : Call) (spot : Spot) {target : Value}
    (htarget : target.IsPlain) (key v : Value) :
    (assign call spot target key v).Raises store := by
  have hnone : metamethod "__newindex" target store = .done .nil store :=
    h.metamethod_plain (by decide) htarget
  rw [assign, maxChain, assignAlong]
  · refine .behind ?_ (show (pure .nil : Eval Value) store = .done .nil store from rfl)
    cases target with
    | nil => exact .behind ⟨_, _, rfl⟩ hnone
    | number n => exact .behind ⟨_, _, rfl⟩ hnone
    | string s => exact .behind ⟨_, _, rfl⟩ hnone
    | _ => cases htarget
  · rintro _ _ rfl
    cases htarget

/-- Nothing is subtracted from what is no number. -/
theorem raises_minus_nil (call : Call) (spot : Spot) (store : Store) :
    (arithmetic call spot .unm .nil .nil).Raises store := ⟨_, _, rfl⟩

/-! ## Assignments that fail -/

section Assignments

variable {call : Call} {frame : Frame} {env : Env} {middle : Store} {target e : Expr} {line : Nat}

/-- There is no place to assign to, since evaluating the target fails; the value is not looked at.
-/
theorem raises_assign_target (htarget : (evalTargets call frame env [target]).Raises store) :
    (execStat call frame env (.assign [target] [e] line)).Raises store := by
  rw [execStat]
  exact htarget.bind _

/-- There is nothing to assign, since evaluating the value fails after the target. -/
theorem raises_assign_value {targets : List Target}
    (htarget : evalTargets call frame env [target] store = .done targets middle)
    (hvalue : (evalExpr call frame env e).Raises middle) :
    (execStat call frame env (.assign [target] [e] line)).Raises store := by
  have hlist : (evalList call frame env [e]).Raises middle := by
    rw [evalList]
    exact hvalue
  rw [execStat]
  exact .behind (hlist.bind _) htarget

/-- There is nothing to assign to: target and value are there, but the target is a field of what has
none. -/
theorem raises_assign_field {v key : Value} {vs : List Value} {next : Store}
    (htarget : evalTargets call frame env [target] store = .done [.field v key] middle)
    (hv : v.IsPlain) (hvalue : evalExpr call frame env e middle = .done vs next)
    (hstrings : HasStrings next) :
    (execStat call frame env (.assign [target] [e] line)).Raises store := by
  have hassign : (assignTargets call (frame.at line) [.field v key] vs).Raises next := by
    rw [assignTargets]
    exact .behind (hstrings.raises_assign call (frame.at line) hv key (firstOf vs)) rfl
  rw [execStat]
  refine .behind ?_ htarget
  exact .behind (hassign.bind _) (evalList_one hvalue)

end Assignments

/-! ## Before any program -/

/-- Before any program strings have their library, and the names that programs ask for are not in
it. -/
theorem start_strings : HasStrings .start := ⟨start_stringMeta, start_string⟩

end FeatureTransform.Lua
