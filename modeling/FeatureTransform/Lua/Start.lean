import FeatureTransform.Lua.Library.Interchange
import FeatureTransform.Lua.Library.Mathematics

/-!
# The state before any program

The global variables are the basic functions and the libraries of the language and of the host.
There is no way to files, processes or the state of the interpreter itself.
-/

namespace FeatureTransform.Lua

/-- A table of functions. -/
def Table.ofFunctions (functions : List (String × Builtin)) : Table :=
  functions.foldl (fun t (name, b) => t.setText name (.builtin b)) .empty

/-- The fields of a library that are no functions. -/
def constantsOf (library : String) : List (String × Value) :=
  match library with
  | "math" => [
    ("pi", .float Mathematics.pi), ("huge", .float (1.0 / 0.0)),
    ("maxinteger", .int 9223372036854775807), ("mininteger", .int (-9223372036854775808))]
  | "utf8" => [("charpattern", .string ⟨#[
    0x5B, 0x00, 0x2D, 0x7F, 0xC2, 0x2D, 0xFD, 0x5D, 0x5B, 0x80, 0x2D, 0xBF, 0x5D, 0x2A]⟩)]
  | "json" => [("null", .null)]
  | _ => []

/-- A library as a table. -/
def libraryTable (library : String × List (String × Builtin)) : Table :=
  (constantsOf library.1).foldl (fun t (name, v) => t.setText name v)
    (.ofFunctions library.2)

/-- All libraries that are tables. -/
def allLibraries : List (String × List (String × Builtin)) := libraries ++ hostLibraries

/-- The number of the table of the first library. -/
def firstLibraryRef : Nat := 3

/-- The number of the table of a library. -/
def libraryRef (name : String) : Nat :=
  firstLibraryRef + allLibraries.findIdx fun library => library.1 == name

/-- The global variables. -/
def globals : Table :=
  let t := Table.ofFunctions basicFunctions
  let t := (t.setText "_G" (.table globalsRef)).setText "_VERSION" (.text "Lua 5.4")
  allLibraries.foldl (fun t (name, _) => t.setText name (.table (libraryRef name))) t

/-- The metatable of strings: a string has the functions of its library as methods. -/
def stringMetatable : Table := Table.empty.setText "__index" (.table (libraryRef "string"))

/-- The metatable of arrays. -/
def arrayMetatable : Table := Table.empty.setText Interchange.markerName (.text "array")

/-- The state before any program. -/
def Store.start : Store :=
  { tables := #[globals, stringMetatable, arrayMetatable] ++ allLibraries.map libraryTable
    cells := #[], closures := #[], failures := #[], feedback := [] }

end FeatureTransform.Lua
