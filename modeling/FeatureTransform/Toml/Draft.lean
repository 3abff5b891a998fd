import FeatureTransform.Toml.Basic

/-!
# Documents under construction

A document is a sequence of headers and entries. Which further lines are allowed depends on how a
table came about: a header opens a table once, entries under dotted keys may go on with a table
made by such keys, and a table that is a value is closed.
-/

namespace FeatureTransform.Toml

/-- How a table came about. -/
inductive Standing where
  /-- a header named a table inside it -/
  | implied
  /-- a header named it -/
  | opened
  /-- a dotted key named it -/
  | dotted
deriving DecidableEq, Repr

/-- What a name stands for so far. -/
inductive Draft where
  /-- a value -/
  | value (v : Toml)
  /-- a table that may go on -/
  | table (standing : Standing) (entries : List (String × Draft))
  /-- tables under headers of one name, the last first -/
  | tables (items : List (List (String × Draft)))

namespace Draft

/-- What the names of a table stand for so far. -/
abbrev Entries := List (String × Draft)

/-- The entries with what a name of theirs stands for replaced. -/
def replace (name : String) (draft : Draft) (entries : Entries) : Entries :=
  entries.map fun (other, old) => (other, if other = name then draft else old)

/-- Changes the table that a list of names leads to; of tables under one name it is the last, and
tables on the way that are missing are made. -/
def within (change : Entries → Except ReadError Entries) :
    List String → Entries → Except ReadError Entries
  | [], entries => change entries
  | name :: path, entries =>
    match entries.lookup name with
    | none => do return entries ++ [(name, .table .implied (← within change path []))]
    | some (.table standing inner) => do
      return replace name (.table standing (← within change path inner)) entries
    | some (.tables (last :: before)) => do
      return replace name (.tables ((← within change path last) :: before)) entries
    | some (.tables []) | some (.value _) => .error (.duplicate name)

/-- Opens a table by a header. -/
def openTable (name : String) (entries : Entries) : Except ReadError Entries :=
  match entries.lookup name with
  | none => .ok (entries ++ [(name, .table .opened [])])
  | some (.table .implied inner) => .ok (replace name (.table .opened inner) entries)
  | some _ => .error (.duplicate name)

/-- Opens one more of the tables of one name. -/
def openNext (name : String) (entries : Entries) : Except ReadError Entries :=
  match entries.lookup name with
  | none => .ok (entries ++ [(name, .tables [[]])])
  | some (.tables items) => .ok (replace name (.tables ([] :: items)) entries)
  | some _ => .error (.duplicate name)

/-- Enters a value under a key. All tables but the last on the way may have been implied by a
header; the last one is the key's own. -/
def enter (v : Toml) : (key : List String) → Entries → Except ReadError Entries
  | [], entries => .ok entries
  | [name], entries =>
    match entries.lookup name with
    | none => .ok (entries ++ [(name, .value v)])
    | some _ => .error (.duplicate name)
  | name :: key, entries =>
    match entries.lookup name with
    | none => do return entries ++ [(name, .table .dotted (← enter v key []))]
    | some (.table standing inner) =>
      if standing = .dotted ∨ (standing = .implied ∧ 1 < key.length) then do
        return replace name (.table standing (← enter v key inner)) entries
      else .error (.duplicate name)
    | some _ => .error (.duplicate name)

mutual

/-- The value that a draft comes to. -/
def finish : Draft → Toml
  | .value v => v
  | .table _ entries => .table (finishEntries entries)
  | .tables items => .array (finishTables items).reverse

/-- The entries of a finished table. -/
def finishEntries : Entries → List (String × Toml)
  | [] => []
  | (name, draft) :: rest => (name, finish draft) :: finishEntries rest

/-- The finished tables of one name. -/
def finishTables : List Entries → List Toml
  | [] => []
  | entries :: rest => .table (finishEntries entries) :: finishTables rest

end

end Draft

end FeatureTransform.Toml
