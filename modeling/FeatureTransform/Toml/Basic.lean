/-!
# TOML values

What a TOML text holds: a table of named values. Dates and times are kept as they are written,
since nothing is computed with them.
-/

namespace FeatureTransform

/-- A TOML value. -/
inductive Toml where
  /-- a text -/
  | string (s : String)
  /-- an integer -/
  | integer (i : Int)
  /-- a double -/
  | float (f : Float)
  /-- a truth value -/
  | boolean (b : Bool)
  /-- a date, a time or both -/
  | moment (text : String)
  /-- values in order -/
  | array (items : List Toml)
  /-- named values, each name once -/
  | table (entries : List (String × Toml))

namespace Toml

/-- Why a text is not TOML. -/
inductive ReadError where
  /-- a string that does not end, or holds what no string may hold -/
  | badString
  /-- an escape that does not exist -/
  | badEscape
  /-- a word that is neither a number nor a truth value nor a date or time -/
  | badScalar (word : String)
  /-- no key where one should stand -/
  | noKey
  /-- a key without an equals sign and a value behind it -/
  | noValue
  /-- an array that does not end, or lacks a comma -/
  | badArray
  /-- an inline table that does not end, or lacks a comma -/
  | badInlineTable
  /-- a header without its brackets -/
  | badHeader
  /-- something more on a line that should end -/
  | badEnd
  /-- a name that is given twice -/
  | duplicate (name : String)
  /-- arrays and inline tables nested too deep -/
  | tooDeep
deriving DecidableEq, Repr

/-- The sentence that describes the error. -/
def ReadError.message : ReadError → String
  | .badString => "TOML parse error: invalid string"
  | .badEscape => "TOML parse error: invalid escape"
  | .badScalar word => s!"TOML parse error: invalid value '{word}'"
  | .noKey => "TOML parse error: expected a key"
  | .noValue => "TOML parse error: expected a value"
  | .badArray => "TOML parse error: invalid array"
  | .badInlineTable => "TOML parse error: invalid inline table"
  | .badHeader => "TOML parse error: invalid table header"
  | .badEnd => "TOML parse error: expected the end of the line"
  | .duplicate name => s!"TOML parse error: duplicate key '{name}'"
  | .tooDeep => "TOML parse error: recursion limit exceeded"

/-- The item called `name` of a table. -/
def entry? (name : String) : Toml → Option Toml
  | .table entries => entries.lookup name
  | _ => none

/-- The text that a value is. -/
def text? : Toml → Option String
  | .string s => some s
  | _ => none

end Toml

end FeatureTransform
