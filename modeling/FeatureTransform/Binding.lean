import FeatureTransform.Decimal.Read
import FeatureTransform.Script.Basic

/-!
# Values bound to parameters

The host binds a value to each parameter before a script runs. A value may be read as a text or as
a number, whatever it is; the kind of the parameter decides which of the two is asked for.
-/

namespace FeatureTransform

/-- A value that the host binds to a parameter. -/
inductive BoundValue where
  /-- no value -/
  | null
  /-- a text -/
  | text (s : String)
  /-- a double -/
  | number (f : Float)
  /-- a truth value -/
  | bool (b : Bool)
deriving DecidableEq

namespace BoundValue

/-- The value as a text. -/
def asText : BoundValue → Option String
  | .null => none
  | .text s => some s
  | .number f => some (Decimal.plainText f)
  | .bool true => some "true"
  | .bool false => some "false"

/-- The value as a number; a text is read, white space around it does not count. -/
def asNumber : BoundValue → Option Float
  | .number f => some f
  | .text s => Decimal.read? (Text.trim s.toList)
  | .null | .bool _ => none

/-- How messages show the value. -/
def display (v : BoundValue) : String := v.asText.getD "null"

end BoundValue

/-- Values by parameter name. -/
structure Bindings where
  /-- the values; of two with one name the first counts -/
  entries : List (String × BoundValue)

namespace Bindings

/-- No values. -/
def empty : Bindings := ⟨[]⟩

/-- The value bound to a name. -/
def get? (bindings : Bindings) (name : String) : Option BoundValue := bindings.entries.lookup name

/-- The bindings with one value set. -/
def insert (bindings : Bindings) (name : String) (v : BoundValue) : Bindings :=
  ⟨(name, v) :: bindings.entries.filter (·.1 ≠ name)⟩

/-- The value that the declaration of a parameter gives it. -/
def declared? (p : Parameter) : Option BoundValue :=
  match p.kind with
  | .string (some s) | .crs (some s) => some (.text s)
  | .number (some f) _ _ => some (.number f)
  | .boolean b => some (.bool b)
  | _ => none

/-- The values that the declarations of a script give. -/
def ofDefaults (script : Script) : Bindings :=
  ⟨script.parameters.filterMap fun p => (declared? p).map fun v => (p.name, v)⟩

end Bindings

end FeatureTransform
