/-!
# UTF-8

Where a byte string stops being UTF-8, and the text read from it when every ill-formed part is
replaced by U+FFFD. An ill-formed part is the longest start of a character that the next byte
breaks off.
-/

namespace FeatureTransform.Utf8

/-- How a byte string begins. -/
inductive Start where
  /-- a whole character, with the number of its bytes -/
  | character (c : Char) (size : Nat)
  /-- `size` bytes that belong to no character -/
  | broken (size : Nat)
  /-- the bytes end inside a character -/
  | cutOff (size : Nat)

/-- The bounds of the second byte after a lead byte: this is where overlong forms, surrogates and
code points above U+10FFFF are refused. -/
def secondBounds (lead : Nat) : Nat × Nat :=
  if lead == 0xE0 then (0xA0, 0xBF)
  else if lead == 0xED then (0x80, 0x9F)
  else if lead == 0xF0 then (0x90, 0xBF)
  else if lead == 0xF4 then (0x80, 0x8F)
  else (0x80, 0xBF)

/-- The number of bytes of a character by its lead byte; 0 for a byte that leads nothing. -/
def lengthOfLead (lead : Nat) : Nat :=
  if lead < 0x80 then 1
  else if lead < 0xC2 then 0
  else if lead < 0xE0 then 2
  else if lead < 0xF0 then 3
  else if lead < 0xF5 then 4
  else 0

/-- How many of the bytes continue a character of which `done` bytes are read, `code` so far;
`need` are wanted in all. -/
def continueFrom (need : Nat) : (done : Nat) → (code : Nat) → (bounds : Nat × Nat) →
    List UInt8 → Start
  | done, code, _, [] =>
    if done = need then .character (Char.ofNat code) done else .cutOff done
  | done, code, (low, high), b :: rest =>
    if done = need then .character (Char.ofNat code) done
    else if low ≤ b.toNat && b.toNat ≤ high then
      continueFrom need (done + 1) (code * 64 + (b.toNat - 0x80)) (0x80, 0xBF) rest
    else .broken done

/-- How a non-empty byte string begins. -/
def start (b : UInt8) (rest : List UInt8) : Start :=
  let lead := b.toNat
  match lengthOfLead lead with
  | 0 => .broken 1
  | 1 => .character (Char.ofNat lead) 1
  | 2 => continueFrom 2 1 (lead - 0xC0) (secondBounds lead) rest
  | 3 => continueFrom 3 1 (lead - 0xE0) (secondBounds lead) rest
  | _ => continueFrom 4 1 (lead - 0xF0) (secondBounds lead) rest

/-- Why a byte string is not UTF-8. -/
inductive Fault where
  /-- `size` bytes from `index` on belong to no character -/
  | invalid (size index : Nat)
  /-- the bytes end inside a character that begins at `index` -/
  | incomplete (index : Nat)

/-- The sentence that describes the fault. -/
def Fault.message : Fault → String
  | .invalid size index =>
    s!"invalid utf-8 sequence of {size} bytes from index {index}"
  | .incomplete index => s!"incomplete utf-8 byte sequence from index {index}"

/-- The first fault of the bytes; `skip` counts bytes of the current character still to pass. -/
def faultFrom (index : Nat) : (skip : Nat) → List UInt8 → Option Fault
  | _, [] => none
  | skip + 1, _ :: rest => faultFrom (index + 1) skip rest
  | 0, b :: rest =>
    match start b rest with
    | .character _ size => faultFrom (index + 1) (size - 1) rest
    | .broken size => some (.invalid size index)
    | .cutOff _ => some (.incomplete index)

/-- The first fault of the bytes, if they are not UTF-8. -/
def fault? (bytes : ByteArray) : Option Fault := faultFrom 0 0 bytes.data.toList

/-- A part of a byte string. -/
inductive Part where
  /-- a character -/
  | character (c : Char)
  /-- bytes that belong to no character -/
  | broken (bytes : List UInt8)

/-- The parts of the bytes; `skip` counts bytes of the current part still to pass. -/
def partsFrom : (skip : Nat) → List UInt8 → List Part
  | _, [] => []
  | skip + 1, _ :: rest => partsFrom skip rest
  | 0, b :: rest =>
    match start b rest with
    | .character c size => .character c :: partsFrom (size - 1) rest
    | .broken size | .cutOff size => .broken ((b :: rest).take size) :: partsFrom (size - 1) rest

/-- The character that stands for a part: U+FFFD for an ill-formed one. -/
def Part.shown : Part → Char
  | .character c => c
  | .broken _ => '\uFFFD'

/-- The bytes as a text, U+FFFD for each ill-formed part. -/
def lossy (bytes : ByteArray) : String :=
  match String.fromUTF8? bytes with
  | some s => s
  | none => String.ofList ((partsFrom 0 bytes.data.toList).map Part.shown)

/-- The bytes as a text, if they are one. -/
def read (bytes : ByteArray) : Except Fault String :=
  match String.fromUTF8? bytes with
  | some s => .ok s
  | none =>
    match fault? bytes with
    | some fault => .error fault
    | none => .ok (lossy bytes)

/-- The bytes of a text. -/
def bytesOf (s : String) : List UInt8 := s.toUTF8.data.toList

end FeatureTransform.Utf8
