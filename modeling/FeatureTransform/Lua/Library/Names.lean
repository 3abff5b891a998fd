import FeatureTransform.Lua.Value

/-!
# The names of the libraries

Which functions a program finds, and where: the basic ones are global variables, the others are
fields of a global table. The functions that load code or reach out of the program are not there.
-/

namespace FeatureTransform.Lua

/-- The functions that are global variables. -/
def basicFunctions : List (String × Builtin) := [
  ("assert", .assert), ("error", .error), ("getmetatable", .getmetatable), ("ipairs", .ipairs),
  ("next", .next), ("pairs", .pairs), ("pcall", .pcall), ("print", .print),
  ("rawequal", .rawequal), ("rawget", .rawget), ("rawlen", .rawlen), ("rawset", .rawset),
  ("select", .select), ("setmetatable", .setmetatable), ("tonumber", .tonumber),
  ("tostring", .tostring), ("type", .type), ("xpcall", .xpcall)]

/-- The libraries of the language, each with its functions. -/
def libraries : List (String × List (String × Builtin)) := [
  ("table", [
    ("concat", .tableConcat), ("insert", .tableInsert), ("move", .tableMove),
    ("pack", .tablePack), ("remove", .tableRemove), ("sort", .tableSort),
    ("unpack", .tableUnpack)]),
  ("string", [
    ("byte", .stringByte), ("char", .stringChar), ("len", .stringLen), ("lower", .stringLower),
    ("rep", .stringRep), ("reverse", .stringReverse), ("sub", .stringSub),
    ("upper", .stringUpper)]),
  ("math", [
    ("abs", .mathAbs), ("acos", .mathAcos), ("asin", .mathAsin), ("atan", .mathAtan),
    ("ceil", .mathCeil), ("cos", .mathCos), ("deg", .mathDeg), ("exp", .mathExp),
    ("floor", .mathFloor), ("fmod", .mathFmod), ("log", .mathLog), ("max", .mathMax),
    ("min", .mathMin), ("modf", .mathModf), ("rad", .mathRad), ("sin", .mathSin),
    ("sqrt", .mathSqrt), ("tan", .mathTan), ("tointeger", .mathTointeger), ("type", .mathType),
    ("ult", .mathUlt)]),
  ("utf8", [("char", .utf8Char), ("codepoint", .utf8Codepoint), ("len", .utf8Len)])]

/-- The libraries of the host, each with its functions. -/
def hostLibraries : List (String × List (String × Builtin)) := [
  ("feedback", [
    ("push_info", .pushInfo), ("push_warning", .pushWarning), ("report_error", .reportError)]),
  ("json", [("decode", .jsonDecode), ("encode", .jsonEncode)])]

/-- The name of a function where a call does not give it one. -/
def Builtin.fullName (b : Builtin) : String :=
  let basic := basicFunctions.map fun (name, f) => (f, name)
  let fields := libraries.flatMap fun (library, functions) =>
    functions.map fun (name, f) => (f, library ++ "." ++ name)
  ((basic ++ fields).lookup b).getD "?"

end FeatureTransform.Lua
