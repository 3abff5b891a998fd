import FeatureTransform.Lua.Start
import FeatureTransform.Proofs.Lua.Table

/-!
# What is there before any program

The global variables and the fields of libraries that the host relies on when it puts programs
together. No global variable behaves in its own way: their table has no metatable.
-/

namespace FeatureTransform.Lua

open Table (getText_empty getText_setText metatable_setText)

/-! ## Global variables -/

/-- The table of the global variables has no metatable, so that reading and setting a global
variable asks nothing else. -/
theorem globals_metatable : globals.metatable = none := by
  simp only [globals, allLibraries, libraries, hostLibraries, Table.ofFunctions, basicFunctions,
    List.cons_append, List.nil_append, List.foldl, metatable_setText]
  rfl

/-- The globals are a field of themselves, under the name by which programs get at them. -/
theorem globals_self : globals.getText "_G" = .table globalsRef := by
  simp [globals, allLibraries, libraries, hostLibraries, getText_setText]

/-- There is no variable of the name by which the globals themselves are in sight; that name is a
local variable of every program. -/
theorem globals_environment : globals.getText "_ENV" = .nil := by
  simp [globals, allLibraries, libraries, hostLibraries, Table.ofFunctions, basicFunctions,
    getText_setText, getText_empty]

/-- The library of numbers is a global variable, and a program may set it to something else. -/
theorem globals_math : globals.getText "math" = .table (libraryRef "math") := by
  simp [globals, allLibraries, libraries, hostLibraries, getText_setText]

theorem globals_json : globals.getText "json" = .table (libraryRef "json") := by
  simp [globals, allLibraries, libraries, hostLibraries, getText_setText]

/-! ## Tables -/

/-- The tables that are there: the globals, the metatables of strings and of arrays, and the
libraries, one behind the other. -/
theorem start_tables (i : Nat) : Store.start.tables[i]? =
    (globals :: stringMetatable :: arrayMetatable :: allLibraries.map libraryTable)[i]? := by
  rw [Store.start, ← List.getElem?_toArray]
  simp

theorem start_globals : Store.start.tables[globalsRef]? = some globals := by
  rw [start_tables]
  rfl

theorem start_stringMeta : Store.start.tables[stringMetaRef]? = some stringMetatable := by
  rw [start_tables]
  rfl

theorem start_arrayMeta : Store.start.tables[arrayMetaRef]? = some arrayMetatable := by
  rw [start_tables]
  rfl

/-! ## Libraries -/

theorem metatable_foldl {α : Type} {f : Table → α → Table}
    (hf : ∀ t a, (f t a).metatable = t.metatable) (fields : List α) (t : Table) :
    (fields.foldl f t).metatable = t.metatable := by
  induction fields generalizing t with
  | nil => rfl
  | cons a fields ih => rw [List.foldl_cons, ih, hf]

/-- No library behaves in its own way either. -/
theorem libraryTable_metatable (library : String × List (String × Builtin)) :
    (libraryTable library).metatable = none := by
  rw [libraryTable, metatable_foldl fun _ _ => metatable_setText .., Table.ofFunctions,
    metatable_foldl fun _ _ => metatable_setText ..]
  rfl

/-- The infinity that programs ask for is where they ask for it. -/
theorem start_math : ∃ t, Store.start.tables[libraryRef "math"]? = some t ∧ t.metatable = none ∧
    t.getText "huge" = .float (1.0 / 0.0) := by
  obtain ⟨functions, hmath⟩ : ∃ functions, Store.start.tables[libraryRef "math"]? =
    some (libraryTable ("math", functions)) := by
    rw [start_tables]
    exact ⟨_, rfl⟩
  refine ⟨_, hmath, libraryTable_metatable _, ?_⟩
  simp [libraryTable, constantsOf, getText_setText]

theorem start_string : ∃ t, Store.start.tables[libraryRef "string"]? = some t ∧
    t.metatable = none ∧ ∀ x ∈ ["_G", "math", "huge"], t.getText x = .nil := by
  have hstring : Store.start.tables[libraryRef "string"]? = some
      (libraryTable ("string", [("byte", .stringByte), ("char", .stringChar), ("len", .stringLen),
        ("lower", .stringLower), ("rep", .stringRep), ("reverse", .stringReverse),
        ("sub", .stringSub), ("upper", .stringUpper)])) := by
    rw [start_tables]
    rfl
  refine ⟨_, hstring, libraryTable_metatable _, ?_⟩
  simp [libraryTable, constantsOf, Table.ofFunctions, getText_setText, getText_empty]

/-- Both directions of the exchange are there for scripts to call. -/
theorem start_json : ∃ t, Store.start.tables[libraryRef "json"]? = some t ∧
    t.getText "decode" = .builtin .jsonDecode ∧ t.getText "encode" = .builtin .jsonEncode := by
  have hjson : Store.start.tables[libraryRef "json"]? = some
      (libraryTable ("json", [("decode", .jsonDecode), ("encode", .jsonEncode)])) := by
    rw [start_tables]
    rfl
  refine ⟨_, hjson, ?_, ?_⟩
  · simp [libraryTable, constantsOf, Table.ofFunctions, getText_setText]
  · simp [libraryTable, constantsOf, Table.ofFunctions, getText_setText]

end FeatureTransform.Lua
