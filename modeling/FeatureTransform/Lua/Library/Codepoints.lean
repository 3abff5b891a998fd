import FeatureTransform.Lua.Library.Bytes

/-!
# Strings as characters

The functions that take a string as UTF-8. Without its last argument a function refuses surrogates
and what lies beyond U+10FFFF; with it, it takes all numbers of 31 bits.
-/

namespace FeatureTransform.Lua

namespace Codepoints

/-- The greatest number with a form of at most six bytes. -/
def maxCode : Nat := 0x7FFFFFFF

/-- The bytes behind the first one, for so many of them. -/
def followers (code : Nat) : (count : Nat) → List UInt8
  | 0 => []
  | count + 1 => UInt8.ofNat (0x80 + (code >>> (6 * count)) % 64) :: followers code count

/-- How many bytes follow the first one. -/
def followerCount (code : Nat) : Nat :=
  if code < 0x80 then 0
  else if code < 0x800 then 1
  else if code < 0x10000 then 2
  else if code < 0x200000 then 3
  else if code < 0x4000000 then 4
  else 5

/-- The bytes of a number of at most 31 bits. -/
def encode (code : Nat) : List UInt8 :=
  match followerCount code with
  | 0 => [UInt8.ofNat code]
  | n => UInt8.ofNat (0x100 - (1 <<< (7 - n)) + (code >>> (6 * n))) :: followers code n

/-- How many bytes follow a first one, and the bits that it carries; some bytes are no first ones.
-/
def lead? (b : UInt8) : Option (Nat × Nat) :=
  let n := b.toNat
  if n < 0x80 then some (0, n)
  else if n < 0xC0 then none
  else if n < 0xE0 then some (1, n - 0xC0)
  else if n < 0xF0 then some (2, n - 0xE0)
  else if n < 0xF8 then some (3, n - 0xF0)
  else if n < 0xFC then some (4, n - 0xF8)
  else if n < 0xFE then some (5, n - 0xFC)
  else none

/-- The number that so many further bytes complete, and the bytes behind them. -/
def complete? : (count code : Nat) → List UInt8 → Option (Nat × List UInt8)
  | 0, code, rest => some (code, rest)
  | _ + 1, _, [] => none
  | count + 1, code, b :: rest =>
    if b.toNat / 64 = 2 then complete? count (code * 64 + b.toNat % 64) rest else none

/-- The first number of some bytes, and the bytes behind it. -/
def decode? (lax : Bool) : List UInt8 → Option (Nat × List UInt8)
  | [] => none
  | b :: rest =>
    match lead? b with
    | none => none
    | some (count, bits) =>
      match complete? count bits rest with
      | none => none
      | some (code, rest) =>
        if followerCount code ≠ count then none
        else if lax || (code < 0xD800 || (0xDFFF < code && code ≤ 0x10FFFF)) then some (code, rest)
        else none

/-- The bytes that arguments from position `n` on stand for. -/
def bytesFrom (inv : Invocation) (n : Nat) : List Value → Eval (List UInt8)
  | [] => return []
  | _ :: rest => do
    let code ← inv.integer n
    inv.require (0 ≤ code && code.toInt ≤ maxCode) n "value out of range"
    let bytes ← bytesFrom inv (n + 1) rest
    return encode code.toInt.toNat ++ bytes

/-- `utf8.char` -/
def char (inv : Invocation) : Eval (List Value) := do
  return [.string ⟨(← bytesFrom inv 1 inv.arguments).toArray⟩]

/-- A position that may count from the end; zero if it lies before the string. -/
def position (length : Nat) (i : Int) : Int :=
  if 0 ≤ i then i else if length < -i then 0 else length + i + 1

/-- The numbers of the characters that begin within the next so many bytes. -/
def codesWithin (lax : Bool) : (fuel : Nat) → (count : Int) → List UInt8 → Option (List Nat)
  | 0, _, _ => some []
  | fuel + 1, count, bytes =>
    if count ≤ 0 then some []
    else
      match decode? lax bytes with
      | none => none
      | some (code, rest) =>
        (codesWithin lax fuel (count - (bytes.length - rest.length : Nat)) rest).map (code :: ·)

/-- `utf8.codepoint` -/
def codepoint (inv : Invocation) : Eval (List Value) := do
  let s ← inv.string 1
  let first := position s.size (← inv.optional 2 1 Invocation.integer).toInt
  let last ←
    match inv.argument 3 with
    | .nil => pure first
    | _ => do pure (position s.size (← inv.integer 3).toInt)
  inv.require (1 ≤ first) 2 "out of bounds"
  inv.require (last ≤ s.size) 3 "out of bounds"
  let bytes := s.data.toList.drop (first.toNat - 1)
  match codesWithin (inv.argument 4).isTrue (s.size + 1) (last - first + 1) bytes with
  | some codes => return codes.map .nat
  | none => inv.fail "invalid UTF-8 code"

/-- The number of characters that begin within the next so many bytes, or how many bytes come before
the first that is none. -/
def countWithin (lax : Bool) :
    (fuel : Nat) → (passed : Nat) → (count : Int) → List UInt8 → Except Nat Nat
  | 0, _, _, _ => .ok 0
  | fuel + 1, passed, count, bytes =>
    if count ≤ passed then .ok 0
    else
      match decode? lax bytes with
      | none => .error passed
      | some (_, rest) =>
        (countWithin lax fuel (passed + (bytes.length - rest.length)) count rest).map (· + 1)

/-- `utf8.len`: the number of characters, or the position of a byte that begins none. -/
def len (inv : Invocation) : Eval (List Value) := do
  let s ← inv.string 1
  let first := position s.size (← inv.optional 2 1 Invocation.integer).toInt
  let last := position s.size (← inv.optional 3 (-1) Invocation.integer).toInt
  inv.require (1 ≤ first && first ≤ s.size + 1) 2 "initial position out of bounds"
  inv.require (last ≤ s.size) 3 "final position out of bounds"
  let bytes := s.data.toList.drop (first.toNat - 1)
  match countWithin (inv.argument 4).isTrue (s.size + 1) 0 (last - first + 1) bytes with
  | .ok n => return [.nat n]
  | .error passed => return [.nil, .nat (first.toNat + passed)]

end Codepoints

end FeatureTransform.Lua
