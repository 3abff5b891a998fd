import FeatureTransform.Decimal.Read
import FeatureTransform.Json.Basic

/-!
# Reading JSON

A strict reader: what it accepts is JSON, and of two members with one name the later counts. Arrays
and objects may be nested 127 deep. A number without point and exponent is an integer if 64 bits
hold it, signed or unsigned; otherwise it is the double that its digits come to when they are scaled
by a power of ten, which for long numbers need not be the nearest. `-0` is the double `-0.0`.
-/

namespace FeatureTransform.Json

/-- Why a text is not JSON. -/
inductive ReadError where
  /-- the text ends where a value should stand or inside one -/
  | endInValue
  /-- the text ends inside an array -/
  | endInList
  /-- the text ends inside an object -/
  | endInObject
  /-- the text ends inside a string -/
  | endInString
  /-- no value begins like this -/
  | expectedValue
  /-- a misspelt `true`, `false` or `null` -/
  | expectedWord
  /-- a name without a colon behind it -/
  | expectedColon
  /-- an item without a comma or the closing bracket behind it -/
  | expectedCommaInList
  /-- a member without a comma or the closing brace behind it -/
  | expectedCommaInObject
  /-- a comma before a closing bracket or brace -/
  | trailingComma
  /-- something behind the value -/
  | trailingCharacters
  /-- a name that is not a string -/
  | nameNotString
  /-- a number that no rule of the grammar allows -/
  | invalidNumber
  /-- a number beyond the doubles -/
  | numberOutOfRange
  /-- an escape that does not exist -/
  | invalidEscape
  /-- a first half of a surrogate pair that no escape follows -/
  | halfSurrogate
  /-- a surrogate without its other half -/
  | loneSurrogate
  /-- a control character that is not escaped -/
  | controlCharacter
  /-- arrays and objects nested too deep -/
  | tooDeep
deriving DecidableEq, Repr

/-- The sentence that describes the error. -/
def ReadError.message : ReadError → String
  | .endInValue => "EOF while parsing a value"
  | .endInList => "EOF while parsing a list"
  | .endInObject => "EOF while parsing an object"
  | .endInString => "EOF while parsing a string"
  | .expectedValue => "expected value"
  | .expectedWord => "expected ident"
  | .expectedColon => "expected `:`"
  | .expectedCommaInList => "expected `,` or `]`"
  | .expectedCommaInObject => "expected `,` or `\x7d`"
  | .trailingComma => "trailing comma"
  | .trailingCharacters => "trailing characters"
  | .nameNotString => "key must be a string"
  | .invalidNumber => "invalid number"
  | .numberOutOfRange => "number out of range"
  | .invalidEscape => "invalid escape"
  | .halfSurrogate => "unexpected end of hex escape"
  | .loneSurrogate => "lone leading surrogate in hex escape"
  | .controlCharacter => "control character (\\u0000-\\u001F) found while parsing a string"
  | .tooDeep => "recursion limit exceeded"

/-- The white space of JSON. -/
def isSpace (c : Char) : Bool := c == ' ' || c == '\n' || c == '\t' || c == '\r'

/-- The text without the white space in front of it. -/
def skipSpace (s : Text) : Text := s.dropWhile isSpace

/-! ## Words and numbers -/

/-- Reads the rest of a word whose first letter has been read. -/
def readWord (value : Json) : (expected : Text) → Text → Except ReadError (Json × Text)
  | [], s => .ok (value, s)
  | _ :: _, [] => .error .endInValue
  | c :: expected, d :: s => if c = d then readWord value expected s else .error .expectedWord

/-- The number that digits, places behind the point and an exponent stand for. -/
def doubleOf (negative : Bool) (n : Nat) (e : Int) : Except ReadError Number :=
  let magnitude := Decimal.scaled n e
  match Number.ofFloat? (if negative then -magnitude else magnitude) with
  | some n => .ok n
  | none => .error .numberOutOfRange

/-- The number that a whole number stands for: an integer where 64 bits hold it. -/
def wholeOf (negative : Bool) (n : Nat) : Except ReadError Number :=
  if negative then
    -- no integer has the sign of minus zero
    if n = 0 ∨ 0x8000000000000000 < n then doubleOf true n 0
    else
      match Number.ofInt? (-(n : Int)) with
      | some n => .ok n
      | none => doubleOf true n 0
  else
    match Number.ofInt? n with
    | some n => .ok n
    | none => doubleOf false n 0

/-- Reads an exponent behind its letter. -/
def readExponent (negative : Bool) (digits : Decimal.Significand) (s : Text) :
    Except ReadError (Number × Text) :=
  let (down, s) := Decimal.spanSign s
  match s with
  | [] => .error .endInValue
  | _ =>
    match Decimal.spanDigits s with
    | ([], _) => .error .invalidNumber
    | (ds, rest) => do
      let e : Int := Decimal.valueOf 0 ds
      return (← doubleOf negative digits.number (digits.scale + (if down then -e else e)), rest)

/-- Reads what may follow the whole part of a number: places behind a point, an exponent. -/
def readFraction (negative : Bool) (digits : Decimal.Significand) :
    Text → Except ReadError (Number × Text)
  | '.' :: s =>
    match Decimal.spanDigits s with
    | ([], []) => .error .endInValue
    | ([], _ :: _) => .error .invalidNumber
    | (places, rest) =>
      let digits := digits.withPlaces places
      match rest with
      | 'e' :: rest | 'E' :: rest => readExponent negative digits rest
      | rest => do return (← doubleOf negative digits.number digits.scale, rest)
  | 'e' :: s | 'E' :: s => readExponent negative digits s
  | s => do
    -- digits that 64 bits do not hold make no integer
    if digits.scale = 0 then return (← wholeOf negative digits.number, s)
    else return (← doubleOf negative digits.number digits.scale, s)

/-- Reads a number whose minus sign, if it has one, has been read. -/
def readNumber (negative : Bool) (s : Text) : Except ReadError (Number × Text) :=
  match Decimal.spanDigits s with
  | ([], []) => .error .endInValue
  | ([], _ :: _) => .error .invalidNumber
  | ('0' :: _ :: _, _) => .error .invalidNumber
  | (ds, rest) => readFraction negative (.ofWhole ds) rest

/-! ## Strings -/

/-- The value of a hexadecimal digit. -/
def hexValue? (c : Char) : Option Nat :=
  if '0' ≤ c ∧ c ≤ '9' then some (c.toNat - 48)
  else if 'a' ≤ c ∧ c ≤ 'f' then some (c.toNat - 87)
  else if 'A' ≤ c ∧ c ≤ 'F' then some (c.toNat - 55)
  else none

/-- The number of bytes of a text. -/
def byteCount (s : Text) : Nat := s.foldl (fun n c => n + c.utf8Size) 0

/-- Reads four hexadecimal digits. A text of fewer than four bytes is cut off; otherwise its first
four bytes have to be digits. -/
def readHex (s : Text) : Except ReadError (Nat × Text) :=
  match s with
  | a :: b :: c :: d :: rest =>
    match hexValue? a, hexValue? b, hexValue? c, hexValue? d with
    | some a, some b, some c, some d => .ok (((a * 16 + b) * 16 + c) * 16 + d, rest)
    | _, _, _, _ => .error .invalidEscape
  -- the reader looks at bytes, of which a character may have several
  | short => if byteCount short < 4 then .error .endInString else .error .invalidEscape

/-- Reads the second half of a surrogate pair. -/
def readSecondHalf (first : Nat) (s : Text) : Except ReadError (Char × Text) :=
  match s with
  | [] => .error .endInString
  | '\\' :: [] => .error .endInString
  | '\\' :: 'u' :: rest => do
    let (second, rest) ← readHex rest
    if second < 0xDC00 ∨ 0xDFFF < second then .error .loneSurrogate
    else .ok (Char.ofNat ((first - 0xD800) * 0x400 + (second - 0xDC00) + 0x10000), rest)
  | _ => .error .halfSurrogate

/-- Reads an escape behind its backslash. -/
def readEscape : Text → Except ReadError (Char × Text)
  | [] => .error .endInString
  | '"' :: rest => .ok ('"', rest)
  | '\\' :: rest => .ok ('\\', rest)
  | '/' :: rest => .ok ('/', rest)
  | 'b' :: rest => .ok ('\x08', rest)
  | 'f' :: rest => .ok ('\x0c', rest)
  | 'n' :: rest => .ok ('\n', rest)
  | 'r' :: rest => .ok ('\r', rest)
  | 't' :: rest => .ok ('\t', rest)
  | 'u' :: rest => do
    let (n, rest) ← readHex rest
    if 0xDC00 ≤ n ∧ n ≤ 0xDFFF then .error .loneSurrogate
    else if 0xD800 ≤ n ∧ n ≤ 0xDBFF then readSecondHalf n rest
    else .ok (Char.ofNat n, rest)
  | _ :: _ => .error .invalidEscape

/-- Reads a string behind its opening quote; `read` holds the characters before, last first. -/
def readString : (fuel : Nat) → (read : Text) → Text → Except ReadError (String × Text)
  | 0, _, _ => .error .endInString
  | _ + 1, _, [] => .error .endInString
  | fuel + 1, read, c :: rest =>
    if c = '"' then .ok (String.ofList read.reverse, rest)
    else if c = '\\' then do
      let (d, rest) ← readEscape rest
      readString fuel (d :: read) rest
    else if c.toNat < 0x20 then .error .controlCharacter
    else readString fuel (c :: read) rest

/-! ## Values -/

mutual

/-- Reads a value; `room` counts how many arrays and objects may still be opened around each
other. The fuel bounds the number of steps, of which a text never needs more than two for each of
its characters. -/
def readValue : (fuel room : Nat) → Text → Except ReadError (Json × Text)
  | 0, _, _ => .error .endInValue
  | fuel + 1, room, s =>
    match skipSpace s with
    | [] => .error .endInValue
    | 'n' :: rest => readWord .null ['u', 'l', 'l'] rest
    | 't' :: rest => readWord (.bool true) ['r', 'u', 'e'] rest
    | 'f' :: rest => readWord (.bool false) ['a', 'l', 's', 'e'] rest
    | '"' :: rest => do
      let (text, rest) ← readString fuel [] rest
      return (.string text, rest)
    | '[' :: rest =>
      match room with
      | 0 => .error .tooDeep
      | room + 1 => do
        let (items, rest) ← readItems fuel room true rest
        return (.array items, rest)
    | '\x7b' :: rest =>
      match room with
      | 0 => .error .tooDeep
      | room + 1 => do
        let (members, rest) ← readMembers fuel room true rest
        return (ofMembers members, rest)
    | '-' :: rest => do
      let (n, rest) ← readNumber true rest
      return (.number n, rest)
    | c :: rest =>
      if Decimal.isDigit c then do
        let (n, rest) ← readNumber false (c :: rest)
        return (.number n, rest)
      else .error .expectedValue

/-- Reads the items of an array up to its closing bracket; `first` says that none has been read. -/
def readItems : (fuel room : Nat) → (first : Bool) → Text → Except ReadError (List Json × Text)
  | 0, _, _, _ => .error .endInList
  | fuel + 1, room, first, s =>
    match skipSpace s with
    | [] => .error .endInList
    | ']' :: rest => .ok ([], rest)
    | c :: rest =>
      if first then readItem fuel room (c :: rest)
      else if c = ',' then
        match skipSpace rest with
        | [] => .error .endInValue
        | ']' :: _ => .error .trailingComma
        | rest => readItem fuel room rest
      else .error .expectedCommaInList

/-- Reads an item and the items behind it. -/
def readItem : (fuel room : Nat) → Text → Except ReadError (List Json × Text)
  | 0, _, _ => .error .endInList
  | fuel + 1, room, s => do
    let (item, rest) ← readValue fuel room s
    let (items, rest) ← readItems fuel room false rest
    return (item :: items, rest)

/-- Reads the members of an object up to its closing brace; `first` says that none has been
read. -/
def readMembers : (fuel room : Nat) → (first : Bool) → Text →
    Except ReadError (List (String × Json) × Text)
  | 0, _, _, _ => .error .endInObject
  | fuel + 1, room, first, s =>
    match skipSpace s with
    | [] => .error .endInObject
    | '\x7d' :: rest => .ok ([], rest)
    | c :: rest =>
      if first then
        if c = '"' then readMember fuel room rest else .error .nameNotString
      else if c = ',' then
        match skipSpace rest with
        | [] => .error .endInValue
        | '"' :: rest => readMember fuel room rest
        | '\x7d' :: _ => .error .trailingComma
        | _ :: _ => .error .nameNotString
      else .error .expectedCommaInObject

/-- Reads a member behind the opening quote of its name, and the members behind it. -/
def readMember : (fuel room : Nat) → Text → Except ReadError (List (String × Json) × Text)
  | 0, _, _ => .error .endInObject
  | fuel + 1, room, s => do
    let (name, rest) ← readString fuel [] s
    match skipSpace rest with
    | [] => .error .endInObject
    | ':' :: rest => do
      let (value, rest) ← readValue fuel room rest
      let (members, rest) ← readMembers fuel room false rest
      return ((name, value) :: members, rest)
    | _ :: _ => .error .expectedColon

end

/-- How many arrays and objects may be opened around each other. -/
def maxDepth : Nat := 127

/-- The value that a list of characters stands for. -/
def readText (s : Text) : Except ReadError Json := do
  let (value, rest) ← readValue (3 * s.length + 3) maxDepth s
  match skipSpace rest with
  | [] => return value
  | _ :: _ => .error .trailingCharacters

/-- The value that a JSON text stands for. -/
def read (s : String) : Except ReadError Json := readText s.toList

end FeatureTransform.Json
