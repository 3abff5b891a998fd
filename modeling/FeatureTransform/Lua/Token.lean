import FeatureTransform.Lua.Number
import FeatureTransform.Text.Split

/-!
# Tokens of Lua

A program text is a list of tokens with white space and comments between them. Each token knows the
line on which it ends. Strings are bytes: a character of the text stands for its UTF-8 bytes, and
escapes may spell any bytes.
-/

namespace FeatureTransform.Lua

/-- A token. -/
inductive Token where
  /-- a name -/
  | name (x : String)
  /-- a keyword, operator or other mark -/
  | mark (s : String)
  /-- a numeral -/
  | number (n : Number)
  /-- a string literal -/
  | string (s : ByteArray)
deriving DecidableEq

/-- A token and the line on which it ends. -/
structure Lexeme where
  /-- the token -/
  token : Token
  /-- its line -/
  line : Nat
deriving DecidableEq

/-- The words that are no names. -/
def keywords : List String :=
  ["and", "break", "do", "else", "elseif", "end", "false", "for", "function", "goto", "if", "in",
    "local", "nil", "not", "or", "repeat", "return", "then", "true", "until", "while"]

/-- Whether a name may begin with the character. -/
def isNameStart (c : Char) : Bool := c.isAlpha || c == '_'

/-- Whether a name may go on with the character. -/
def isNameRest (c : Char) : Bool := c.isAlphanum || c == '_'

/-- Whether the character ends a line. -/
def isLineEnd (c : Char) : Bool := c == '\n' || c == '\r'

/-- The rest of the text behind a line end whose first character was `c`: a carriage return and a
line feed that follow each other, in either order, end one line. -/
def skipLineEnd (c : Char) : Text → Text
  | d :: rest => if isLineEnd d && d != c then rest else d :: rest
  | [] => []

/-! ## Long brackets -/

/-- The level of a long bracket whose first `[` has been read, and the text behind its second. -/
def longBracket? (level : Nat) : Text → Option (Nat × Text)
  | '[' :: rest => some (level, rest)
  | '=' :: rest => longBracket? (level + 1) rest
  | _ => none

/-- The text behind a closing bracket of that level whose first `]` has been read. -/
def closeBracket? : (level : Nat) → Text → Option Text
  | 0, ']' :: rest => some rest
  | level + 1, '=' :: rest => closeBracket? level rest
  | _, _ => none

/-- The bytes of a text that has been read backwards. -/
def bytesOf (read : List UInt8) : ByteArray := ⟨read.reverse.toArray⟩

/-- Reads a long string up to its closing bracket; each line end counts as a line feed. -/
def readLong (level : Nat) : (fuel : Nat) → (read : List UInt8) → (line : Nat) → Text →
    Option (ByteArray × Nat × Text)
  | 0, _, _, _ => none
  | _ + 1, _, _, [] => none
  | fuel + 1, read, line, c :: rest =>
    if c = ']' then
      match closeBracket? level rest with
      | some rest => some (bytesOf read, line, rest)
      -- a bracket of another level is part of the string
      | none => readLong level fuel (c.toNat.toUInt8 :: read) line rest
    else if isLineEnd c then readLong level fuel (10 :: read) (line + 1) (skipLineEnd c rest)
    else readLong level fuel ((String.utf8EncodeChar c).reverse ++ read) line rest

/-- Reads a long string behind its opening bracket: a line end in front does not count. -/
def readLongString (level line : Nat) (s : Text) : Option (ByteArray × Nat × Text) :=
  match s with
  | c :: rest =>
    if isLineEnd c then readLong level s.length [] (line + 1) (skipLineEnd c rest)
    else readLong level s.length [] line s
  | [] => none

/-! ## Short strings -/

/-- The bytes of a code point of at most 31 bits. -/
def encodeWide (n : Nat) : List UInt8 :=
  let tail (k : Nat) : UInt8 := (0x80 + (n >>> (6 * k)) % 64).toUInt8
  if n < 0x80 then [n.toUInt8]
  else if n < 0x800 then [(0xC0 + n / 64).toUInt8, tail 0]
  else if n < 0x10000 then [(0xE0 + (n >>> 12)).toUInt8, tail 1, tail 0]
  else if n < 0x200000 then [(0xF0 + (n >>> 18)).toUInt8, tail 2, tail 1, tail 0]
  else if n < 0x4000000 then [(0xF8 + (n >>> 24)).toUInt8, tail 3, tail 2, tail 1, tail 0]
  else [(0xFC + (n >>> 30)).toUInt8, tail 4, tail 3, tail 2, tail 1, tail 0]

/-- Reads at most `count` decimal digits. -/
def readDigits : (count : Nat) → (n : Nat) → Text → Nat × Text
  | 0, n, s => (n, s)
  | _ + 1, n, [] => (n, [])
  | count + 1, n, c :: rest =>
    if Decimal.isDigit c then readDigits count (10 * n + (c.toNat - 48)) rest else (n, c :: rest)

/-- Reads a code point in braces behind `\u`. -/
def readCodePoint? : Text → Option (List UInt8 × Text)
  | '\x7b' :: s =>
    match spanHex 0 0 s with
    | (n, count, '\x7d' :: rest) =>
      if count = 0 ∨ 0x80000000 ≤ n then none else some (encodeWide n, rest)
    | _ => none
  | _ => none

/-- The byte that an escape of one letter stands for. -/
def letterEscape? (c : Char) : Option UInt8 :=
  match c with
  | 'a' => some 7
  | 'b' => some 8
  | 'f' => some 12
  | 'n' => some 10
  | 'r' => some 13
  | 't' => some 9
  | 'v' => some 11
  | '\\' => some 92
  | '"' => some 34
  | '\'' => some 39
  | _ => none

/-- The text without the white space in front of it, and the line on which it begins. -/
def skipSpaces : (fuel line : Nat) → Text → Nat × Text
  | 0, line, s => (line, s)
  | _ + 1, line, [] => (line, [])
  | fuel + 1, line, c :: rest =>
    if isLineEnd c then skipSpaces fuel (line + 1) (skipLineEnd c rest)
    else if isSpace c then skipSpaces fuel line rest
    else (line, c :: rest)

/-- Reads an escape behind its backslash: the bytes it stands for, the line behind it, the rest. -/
def readEscape? (line : Nat) : Text → Option (List UInt8 × Nat × Text)
  | [] => none
  | c :: rest =>
    match letterEscape? c with
    | some b => some ([b], line, rest)
    | none =>
      if isLineEnd c then some ([10], line + 1, skipLineEnd c rest)
      else if c = 'x' then
        match rest with
        | a :: b :: rest =>
          match hexDigit? a, hexDigit? b with
          | some a, some b => some ([(16 * a + b).toUInt8], line, rest)
          | _, _ => none
        | _ => none
      else if c = 'z' then
        let (line, rest) := skipSpaces rest.length line rest
        some ([], line, rest)
      else if c = 'u' then (readCodePoint? rest).map fun (bytes, rest) => (bytes, line, rest)
      else if Decimal.isDigit c then
        let (n, rest) := readDigits 3 0 (c :: rest)
        if 255 < n then none else some ([n.toUInt8], line, rest)
      else none

/-- Reads a string up to its closing quote; a line end must be escaped. -/
def readShort (quote : Char) : (fuel : Nat) → (read : List UInt8) → (line : Nat) → Text →
    Option (ByteArray × Nat × Text)
  | 0, _, _, _ => none
  | _ + 1, _, _, [] => none
  | fuel + 1, read, line, c :: rest =>
    if c = quote then some (bytesOf read, line, rest)
    else if c = '\\' then
      match readEscape? line rest with
      | some (bytes, line, rest) => readShort quote fuel (bytes.reverse ++ read) line rest
      | none => none
    else if isLineEnd c then none
    else readShort quote fuel ((String.utf8EncodeChar c).reverse ++ read) line rest

/-! ## Numerals -/

/-- The characters that a numeral takes, and the rest: digits and points, and a sign only behind an
exponent mark. -/
def spanNumeral (isMark : Char → Bool) : (afterMark : Bool) → Text → Text × Text
  | _, [] => ([], [])
  | afterMark, c :: rest =>
    if isMark c then
      let (s, rest) := spanNumeral isMark true rest
      (c :: s, rest)
    else if (hexDigit? c).isSome || c == '.' || (afterMark && (c == '+' || c == '-')) then
      let (s, rest) := spanNumeral isMark false rest
      (c :: s, rest)
    else ([], c :: rest)

/-- The marks in front of an exponent. -/
def isExponentMark (hex : Bool) (c : Char) : Bool :=
  if hex then c == 'p' || c == 'P' else c == 'e' || c == 'E'

/-- Reads a numeral; it must not touch a letter. -/
def readNumeral (s : Text) : Option (Number × Text) :=
  let (front, hex, back) :=
    match s with
    | '0' :: 'x' :: rest => (['0', 'x'], true, rest)
    | '0' :: 'X' :: rest => (['0', 'X'], true, rest)
    | s => ([], false, s)
  let (digits, rest) := spanNumeral (isExponentMark hex) false back
  match rest with
  | c :: _ =>
    if isNameStart c then none
    else (readNumeral? false (front ++ digits)).map fun n => (n, rest)
  | [] => (readNumeral? false (front ++ digits)).map fun n => (n, [])

/-! ## Scanning -/

/-- The marks of two and three characters. -/
def longMarks : List String := ["...", "==", "~=", "<=", ">=", "//", "::", "<<", ">>", ".."]

/-- The marks of one character. -/
def shortMarks : List Char :=
  ['+', '-', '*', '/', '%', '^', '#', '&', '~', '|', '<', '>', '=', '(', ')', '\x7b', '\x7d', '[',
    ']', ';', ':', ',', '.']

/-- The longest mark in front of a text. -/
def readMark (s : Text) : Option (String × Text) :=
  match longMarks.findSome? fun mark =>
      (Text.dropStart? mark.toList s).map fun rest => (mark, rest) with
  | some found => some found
  | none =>
    match s with
    | c :: rest => if shortMarks.contains c then some (String.singleton c, rest) else none
    | [] => none

/-- What stands in front of a text. -/
inductive Scan where
  /-- a token, the line on which it ends, and the rest -/
  | token (t : Token) (line : Nat) (rest : Text)
  /-- white space or a comment, the line behind it, and the rest -/
  | blank (line : Nat) (rest : Text)
  /-- nothing that belongs into a program -/
  | nothing

/-- The text from the end of the line on. -/
def skipLine (s : Text) : Text := s.dropWhile fun c => !isLineEnd c

/-- What a comment leaves of the text behind its two dashes. -/
def scanComment (line : Nat) (s : Text) : Scan :=
  match s with
  | '[' :: rest =>
    match longBracket? 0 rest with
    | some (level, rest) =>
      match readLongString level line rest with
      | some (_, line, rest) => .blank line rest
      | none => .nothing
    -- without a long bracket the comment is the rest of the line
    | none => .blank line (skipLine s)
  | s => .blank line (skipLine s)

/-- What a bracket begins: a long string or a mark. -/
def scanBracket (line : Nat) (rest : Text) : Scan :=
  match longBracket? 0 rest with
  | some (level, body) =>
    match readLongString level line body with
    | some (s, line, rest) => .token (.string s) line rest
    | none => .nothing
  | none =>
    -- a bracket of some level that is not finished is no mark either
    if rest.head? = some '=' then .nothing else .token (.mark "[") line rest

/-- What a name or keyword begins. -/
def scanName (line : Nat) (s : Text) : Scan :=
  let word := String.ofList (s.takeWhile isNameRest)
  let token := if keywords.contains word then Token.mark word else Token.name word
  .token token line (s.dropWhile isNameRest)

/-- What an operator or other mark begins. -/
def scanMark (line : Nat) (s : Text) : Scan :=
  match readMark s with
  | some (mark, rest) => .token (.mark mark) line rest
  | none => .nothing

/-- Whether a numeral begins the text. -/
def startsNumeral : Text → Bool
  | '.' :: c :: _ => Decimal.isDigit c
  | c :: _ => Decimal.isDigit c
  | [] => false

/-- What stands in front of a text whose first character is `c`. -/
def scan (line : Nat) (c : Char) (rest : Text) : Scan :=
  if isLineEnd c then .blank (line + 1) (skipLineEnd c rest)
  else if isSpace c then .blank line rest
  else if isNameStart c then scanName line (c :: rest)
  else if startsNumeral (c :: rest) then
    match readNumeral (c :: rest) with
    | some (n, rest) => .token (.number n) line rest
    | none => .nothing
  else if c = '"' ∨ c = '\'' then
    match readShort c (rest.length + 1) [] line rest with
    | some (s, line, rest) => .token (.string s) line rest
    | none => .nothing
  else if c = '-' ∧ rest.head? = some '-' then scanComment line rest.tail
  else if c = '[' then scanBracket line rest
  else scanMark line (c :: rest)

/-- The tokens of a text that begins on the given line. Each step takes at least one character. -/
def tokensFrom : (fuel line : Nat) → Text → Option (List Lexeme)
  | _, _, [] => some []
  | 0, _, _ :: _ => none
  | fuel + 1, line, c :: rest =>
    match scan line c rest with
    | .token t line rest => (tokensFrom fuel line rest).map (⟨t, line⟩ :: ·)
    | .blank line rest => tokensFrom fuel line rest
    | .nothing => none

/-- The tokens of a program text, if it consists of tokens. -/
def tokens? (s : Text) : Option (List Lexeme) := tokensFrom s.length 1 s

end FeatureTransform.Lua
