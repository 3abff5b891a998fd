import FeatureTransform.Lua.Store
import Mathlib.Tactic

/-!
# Stores that grow

Most computations leave alone what the store has and put new things behind it: what holds of the
tables, variables and functions that are there goes on to hold. Laws of the monad take a computation
apart into the stores between its parts.
-/

namespace FeatureTransform.Lua

/-! ## Computations in parts -/

namespace Eval

variable {α β : Type} {x : Eval α} {a : α} {store next : Store}

@[simp] theorem pure_apply (a : α) (store : Store) : (pure a : Eval α) store = .done a store := rfl

theorem bind_apply (x : Eval α) (f : α → Eval β) (store : Store) : (x >>= f) store =
    match x store with
    | .done a store => f a store
    | .raised e store => .raised e store
    | .endless => .endless := rfl

/-- A computation that is done hands its value and its store on. -/
theorem bind_done (f : α → Eval β) (h : x store = .done a next) :
    (x >>= f) store = f a next := by
  rw [bind_apply, h]

theorem map_done (f : α → β) (h : x store = .done a next) :
    (f <$> x) store = .done (f a) next :=
  bind_done _ h

/-- The computation ends with an error. -/
def Raises (x : Eval α) (store : Store) : Prop := ∃ e next, x store = .raised e next

/-- An error is not got rid of by what comes behind it. -/
theorem Raises.bind (h : x.Raises store) (f : α → Eval β) : (x >>= f).Raises store := by
  obtain ⟨e, next, hx⟩ := h
  exact ⟨e, next, by rw [bind_apply, hx]⟩

/-- What comes behind a computation that is done may raise an error, in the store that this has
left. -/
theorem Raises.behind {f : α → Eval β} (hf : (f a).Raises next) (h : x store = .done a next) :
    (x >>= f).Raises store := by
  obtain ⟨e, last, hlast⟩ := hf
  exact ⟨e, last, (bind_done f h).trans hlast⟩

theorem Raises.not_done (h : x.Raises store) : x store ≠ .done a next := by
  obtain ⟨e, last, hx⟩ := h
  rw [hx]
  nofun

@[simp] theorem read_apply (f : Store → α) (store : Store) :
    read f store = .done (f store) store := rfl

/-- A table that is there is asked for the key, and no metatable is. -/
theorem rawGet_found {ref : Nat} {t : Table} (ht : store.tables[ref]? = some t) (key : Key) :
    rawGet ref key store = .done (t.get key) store := by
  rw [rawGet, read_apply, ht]

section Loops

variable {step : α → Eval (α ⊕ β)} {a' : α} {b : β} {middle : Store}

theorem loop_succ (step : α → Eval (α ⊕ β)) (turns : Nat) (a : α) (store : Store) :
    loop step (turns + 1) a store =
      match step a store with
      | .done (.inl a) store => loop step turns a store
      | .done (.inr b) store => .done b store
      | .raised e store => .raised e store
      | .endless => .endless := rfl

/-- A loop that is done in its first turn. -/
theorem loop_done (turns : Nat) (h : step a store = .done (.inr b) next) :
    loop step (turns + 1) a store = .done b next := by
  rw [loop_succ, h]

/-- A loop that goes on behind its first turn does so in the store of that turn. -/
theorem loop_next (turns : Nat) (h : step a store = .done (.inl a') next) :
    loop step (turns + 1) a store = loop step turns a' next := by
  rw [loop_succ, h]

theorem Raises.loop (turns : Nat) (h : (step a).Raises store) :
    (Eval.loop step (turns + 1) a).Raises store := by
  obtain ⟨e, next, hstep⟩ := h
  exact ⟨e, next, by rw [loop_succ, hstep]⟩

theorem Raises.repeatedly (h : (step a).Raises store) : (Eval.repeatedly step a).Raises store :=
  h.loop (maxTurns - 1)

/-- What is repeated until it is done, and is done at once. -/
theorem repeatedly_once (h : step a store = .done (.inr b) next) :
    repeatedly step a store = .done b next :=
  loop_done (maxTurns - 1) h

/-- What is repeated until it is done, and is done the second time. -/
theorem repeatedly_twice (h : step a store = .done (.inl a') middle)
    (h' : step a' middle = .done (.inr b) next) : repeatedly step a store = .done b next :=
  (loop_next (maxTurns - 1) h).trans (loop_done (maxTurns - 2) h')

end Loops

end Eval

/-! ## Growth -/

namespace Store

/-- The store with one more variable. -/
def withCell (store : Store) (v : Value) : Store := { store with cells := store.cells.push v }

/-- The store with one more function. -/
def withClosure (store : Store) (f : Function) (env : Env) : Store :=
  { store with closures := store.closures.push { function := f, env := env } }

/-- What one store has stays where it is in the other. -/
structure Grows (before after : Store) : Prop where
  /-- the tables stay -/
  tables : ∀ {i : Nat} {t : Table}, before.tables[i]? = some t → after.tables[i]? = some t
  /-- the variables keep their values -/
  cells : ∀ {i : Nat} {v : Value}, before.cells[i]? = some v → after.cells[i]? = some v
  /-- the functions stay -/
  closures : ∀ {i : Nat} {f : Closure}, before.closures[i]? = some f → after.closures[i]? = some f

variable {first second third : Store}

theorem Grows.refl (store : Store) : store.Grows store := ⟨id, id, id⟩

/-- A store that has grown twice has grown. -/
theorem Grows.trans (h : first.Grows second) (h' : second.Grows third) : first.Grows third :=
  ⟨fun ht => h'.tables (h.tables ht), fun hv => h'.cells (h.cells hv),
    fun hf => h'.closures (h.closures hf)⟩

theorem getElem?_push {α : Type} {items : Array α} {item : α} {i : Nat} {a : α}
    (h : items[i]? = some a) : (items.push item)[i]? = some a := by
  obtain ⟨hlt, heq⟩ := Array.getElem?_eq_some_iff.mp h
  rw [Array.getElem?_push_lt hlt, heq]

/-- A new table comes behind those that are there. -/
theorem grows_newTable (store : Store) (t : Table) :
    store.Grows { store with tables := store.tables.push t } :=
  ⟨getElem?_push, id, id⟩

theorem grows_withCell (store : Store) (v : Value) : store.Grows (store.withCell v) :=
  ⟨id, getElem?_push, id⟩

/-- The new variable is the last. -/
theorem cells_withCell (store : Store) (v : Value) :
    (store.withCell v).cells[store.cells.size]? = some v :=
  Array.getElem?_push_size

theorem grows_withClosure (store : Store) (f : Function) (env : Env) :
    store.Grows (store.withClosure f env) :=
  ⟨id, id, getElem?_push⟩

/-- The new function is the last. -/
theorem closures_withClosure (store : Store) (f : Function) (env : Env) :
    (store.withClosure f env).closures[store.closures.size]? = some ⟨f, env⟩ :=
  Array.getElem?_push_size

/-- There are no fewer tables, since none is ever taken away. -/
theorem Grows.size_le (h : first.Grows second) : first.tables.size ≤ second.tables.size := by
  by_contra hless
  have hlast := h.tables (Array.getElem?_eq_getElem (show second.tables.size < first.tables.size by
    omega))
  rw [Array.getElem?_eq_none (Nat.le_refl _)] at hlast
  cases hlast

end Store

end FeatureTransform.Lua
