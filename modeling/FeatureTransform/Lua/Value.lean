import FeatureTransform.Lua.Number

/-!
# Values of Lua

Tables and functions are references into a store, so two of them are equal only if they are the
same one. Strings are bytes. A key of a table is a value that is neither `nil` nor NaN, in a form
in which equal values are the same: a double that is equal to an integer is that integer.
-/

namespace FeatureTransform.Lua

/-- The functions of the libraries, and the iterator behind `ipairs`. -/
inductive Builtin where
  | assert | error | getmetatable | ipairs | ipairsStep | next | pairs | pcall | print | rawequal
  | rawget | rawlen | rawset | select | setmetatable | tonumber | tostring | type | xpcall
  | pushInfo | pushWarning | reportError
  | jsonDecode | jsonEncode
  | tableConcat | tableInsert | tableMove | tablePack | tableRemove | tableSort | tableUnpack
  | stringByte | stringChar | stringLen | stringLower | stringRep | stringReverse | stringSub
  | stringUpper
  | mathAbs | mathAcos | mathAsin | mathAtan | mathCeil | mathCos | mathDeg | mathExp | mathFloor
  | mathFmod | mathLog | mathMax | mathMin | mathModf | mathRad | mathSin | mathSqrt | mathTan
  | mathTointeger | mathType | mathUlt
  | utf8Char | utf8Codepoint | utf8Len
deriving DecidableEq, Hashable, Repr

/-- A value. -/
inductive Value where
  /-- no value -/
  | nil
  /-- a truth value -/
  | bool (b : Bool)
  /-- a number -/
  | number (n : Number)
  /-- a string -/
  | string (s : ByteArray)
  /-- a table of the store -/
  | table (ref : Nat)
  /-- a function of the store -/
  | closure (ref : Nat)
  /-- a function of the libraries -/
  | builtin (b : Builtin)
  /-- the host's `null`, which unlike `nil` can be an item of a table -/
  | null
  /-- an error of the host -/
  | failure (ref : Nat)
deriving DecidableEq

namespace Value

/-- The string of a text. -/
def text (s : String) : Value := .string s.toUTF8

/-- An integer. -/
def int (i : Int64) : Value := .number (.int i)

/-- A double. -/
def float (f : Float) : Value := .number (.float f)

/-- A count. -/
def nat (n : Nat) : Value := int (Int64.ofNat n)

/-- Whether a condition that has this value holds: all values do but `nil` and `false`. -/
def isTrue : Value → Bool
  | .nil | .bool false => false
  | _ => true

/-- Whether the value is a function. -/
def isFunction : Value → Bool
  | .closure _ | .builtin _ => true
  | _ => false

/-- The name of the value's type. -/
def typeName : Value → String
  | .nil => "nil"
  | .bool _ => "boolean"
  | .number _ => "number"
  | .string _ => "string"
  | .table _ => "table"
  | .closure _ | .builtin _ => "function"
  | .null | .failure _ => "userdata"

/-- The name of the value's type for the host, which tells apart what scripts need not. -/
def hostTypeName : Value → String
  | .number (.int _) => "integer"
  | .number (.float _) => "number"
  | .null => "lightuserdata"
  | .failure _ => "error"
  | v => v.typeName

/-- Whether two values are equal without asking them: numbers by what they are worth, strings by
their bytes, all else by being the same. -/
def rawEqual : Value → Value → Bool
  | .number a, .number b => a.equal b
  | a, b => a = b

/-- The number that the value is or, for a string, spells. -/
def toNumber? : Value → Option Number
  | .number n => some n
  | .string s => Number.ofBytes? s
  | _ => none

/-- The bytes of a string, or of a number written as one. -/
def toBytes? : Value → Option ByteArray
  | .string s => some s
  | .number n => some n.text.toUTF8
  | _ => none

end Value

/-! ## Keys -/

/-- A key of a table. -/
inductive Key where
  /-- a truth value -/
  | bool (b : Bool)
  /-- an integer, or the double equal to it -/
  | int (i : Int64)
  /-- any other double, by its bits -/
  | float (bits : UInt64)
  /-- a string -/
  | string (s : ByteArray)
  /-- a table -/
  | table (ref : Nat)
  /-- a function of the store -/
  | closure (ref : Nat)
  /-- a function of the libraries -/
  | builtin (b : Builtin)
  /-- the host's `null` -/
  | null
  /-- an error of the host -/
  | failure (ref : Nat)
deriving DecidableEq, Hashable

namespace Key

/-- The key of a double; NaN is none. -/
def ofFloat? (f : Float) : Option Key :=
  match intOfFloat? f with
  | some i => some (.int i)
  | none => if f.isNaN then none else some (.float f.toBits)

/-- The key that a value is, if it can be one. -/
def of? : Value → Option Key
  | .nil => none
  | .bool b => some (.bool b)
  | .number (.int i) => some (.int i)
  | .number (.float f) => ofFloat? f
  | .string s => some (.string s)
  | .table r => some (.table r)
  | .closure r => some (.closure r)
  | .builtin b => some (.builtin b)
  | .null => some .null
  | .failure r => some (.failure r)

/-- The value that a key is. -/
def toValue : Key → Value
  | .bool b => .bool b
  | .int i => .number (.int i)
  | .float bits => .number (.float (Float.ofBits bits))
  | .string s => .string s
  | .table r => .table r
  | .closure r => .closure r
  | .builtin b => .builtin b
  | .null => .null
  | .failure r => .failure r

/-- The key of a text. -/
def text (s : String) : Key := .string s.toUTF8

/-- The key of a position. -/
def nat (n : Nat) : Key := .int (Int64.ofNat n)

end Key

end FeatureTransform.Lua
