import FeatureTransform.Lua.Library.Argument

/-!
# Strings as bytes

The functions on strings that need no patterns. Letters are those of ASCII. Positions count from
one, negative ones from the end.
-/

namespace FeatureTransform.Lua

namespace Bytes

/-! ## Positions -/

/-- A first position in a string of a length: at least one. -/
def firstPosition (length : Nat) (i : Int) : Nat :=
  if 0 < i then i.toNat
  else if i = 0 ∨ i < -length then 1
  else (length + i + 1).toNat

/-- A last position in a string of a length: at most the length. -/
def lastPosition (length : Nat) (i : Int) : Nat :=
  if length < i then length
  else if 0 ≤ i then i.toNat
  else (length + i + 1).toNat

/-- The bytes from a first to a last position. -/
def slice (s : ByteArray) (first last : Nat) : ByteArray := s.extract (first - 1) last

/-! ## Functions -/

/-- `string.len` -/
def len (inv : Invocation) : Eval (List Value) := do
  return [.nat (← inv.string 1).size]

/-- `string.sub` -/
def sub (inv : Invocation) : Eval (List Value) := do
  let s ← inv.string 1
  let first ← inv.integer 2
  let last ← inv.optional 3 (-1) Invocation.integer
  return [.string (slice s (firstPosition s.size first.toInt) (lastPosition s.size last.toInt))]

/-- The string with each byte changed. -/
def mapBytes (f : UInt8 → UInt8) (s : ByteArray) : ByteArray := ⟨s.data.map f⟩

/-- The lower-case form of an ASCII letter. -/
def toLower (b : UInt8) : UInt8 := if 65 ≤ b && b ≤ 90 then b + 32 else b

/-- The upper-case form of an ASCII letter. -/
def toUpper (b : UInt8) : UInt8 := if 97 ≤ b && b ≤ 122 then b - 32 else b

/-- `string.lower` -/
def lower (inv : Invocation) : Eval (List Value) := do
  return [.string (mapBytes toLower (← inv.string 1))]

/-- `string.upper` -/
def upper (inv : Invocation) : Eval (List Value) := do
  return [.string (mapBytes toUpper (← inv.string 1))]

/-- `string.reverse` -/
def reverse (inv : Invocation) : Eval (List Value) := do
  return [.string ⟨(← inv.string 1).data.reverse⟩]

/-- So many copies of a string, made by doubling. -/
def copies (s : ByteArray) (n : Nat) : ByteArray :=
  if n = 0 then .empty
  else
    let half := copies s (n / 2)
    if n % 2 = 0 then half ++ half else half ++ half ++ s
termination_by n
decreasing_by omega

/-- How many bytes a string may have that a function of this library builds. -/
def maxSize : Nat := 0x7FFFFFFF

/-- `string.rep`. The string is built apart and then copied, so there has to be room for two. -/
def rep (inv : Invocation) : Eval (List Value) := do
  let s ← inv.string 1
  let count := (← inv.integer 2).toInt.toNat
  let separator ← inv.optional 3 .empty Invocation.string
  if count = 0 then return [.string .empty]
  else if maxSize / count < s.size + separator.size then inv.fail "resulting string too large"
  else
    Eval.reserve (2 * (count * s.size + (count - 1) * separator.size))
    return [.string (copies (s ++ separator) (count - 1) ++ s)]

/-- `string.byte` -/
def byte (inv : Invocation) : Eval (List Value) := do
  let s ← inv.string 1
  let first ← inv.optional 2 1 Invocation.integer
  let last ← inv.optional 3 first Invocation.integer
  let bytes := slice s (firstPosition s.size first.toInt) (lastPosition s.size last.toInt)
  return bytes.data.toList.map fun b => .nat b.toNat

/-- The bytes that arguments from position `n` on stand for. -/
def bytesFrom (inv : Invocation) (n : Nat) : List Value → Eval (List UInt8)
  | [] => return []
  | _ :: rest => do
    let code ← inv.integer n
    inv.require (0 ≤ code && code ≤ 255) n "value out of range"
    let bytes ← bytesFrom inv (n + 1) rest
    return UInt8.ofNat code.toInt.toNat :: bytes

/-- `string.char` -/
def char (inv : Invocation) : Eval (List Value) := do
  return [.string ⟨(← bytesFrom inv 1 inv.arguments).toArray⟩]

end Bytes

end FeatureTransform.Lua
