import FeatureTransform.Json.Read
import FeatureTransform.Toml.Basic

/-!
# TOML strings

A string stands between quotes on one line, or between three quotes on several. Double quotes admit
escapes, single quotes do not. A text is written with no escape where one of the four forms can hold
it, the plainest first. Nothing is written but entries whose values are arrays of texts.
-/

namespace FeatureTransform.Toml

/-! ## Reading -/

/-- Whether a character may stand in a text as it is: all but the control characters, of which only
the tab may. -/
def isPlain (c : Char) : Bool := c == '\t' || (0x20 ≤ c.toNat && c.toNat != 0x7F)

/-- The white space within a line. -/
def isInlineSpace (c : Char) : Bool := c == ' ' || c == '\t'

/-- The text behind a line break, if it begins with one. -/
def dropBreak? : Text → Option Text
  | '\n' :: rest => some rest
  | '\r' :: '\n' :: rest => some rest
  | _ => none

/-- The number that `count` hexadecimal digits in front of a text stand for, and the rest. -/
def readHexDigits : (count acc : Nat) → Text → Except ReadError (Nat × Text)
  | 0, acc, s => .ok (acc, s)
  | _ + 1, _, [] => .error .badEscape
  | count + 1, acc, c :: rest =>
    match Json.hexValue? c with
    | some n => readHexDigits count (16 * acc + n) rest
    | none => .error .badEscape

/-- The character of a number that an escape gives in `count` digits. -/
def readCodePoint (count : Nat) (s : Text) : Except ReadError (Char × Text) := do
  let (n, rest) ← readHexDigits count 0 s
  if n.isValidChar then .ok (Char.ofNat n, rest) else .error .badEscape

/-- Reads an escape behind its backslash. -/
def readEscape : Text → Except ReadError (Char × Text)
  | 'b' :: rest => .ok ('\x08', rest)
  | 't' :: rest => .ok ('\t', rest)
  | 'n' :: rest => .ok ('\n', rest)
  | 'f' :: rest => .ok ('\x0c', rest)
  | 'r' :: rest => .ok ('\r', rest)
  | '"' :: rest => .ok ('"', rest)
  | '\\' :: rest => .ok ('\\', rest)
  | 'u' :: rest => readCodePoint 4 rest
  | 'U' :: rest => readCodePoint 8 rest
  | _ => .error .badEscape

/-- Reads a string of one line behind its opening quote; `read` holds the characters before, last
first. -/
def readShort (quote : Char) : (fuel : Nat) → (read : Text) → Text →
    Except ReadError (String × Text)
  | 0, _, _ | _ + 1, _, [] => .error .badString
  | fuel + 1, read, c :: rest =>
    if c = quote then .ok (String.ofList read.reverse, rest)
    else if c = '\\' ∧ quote = '"' then do
      let (d, rest) ← readEscape rest
      readShort quote fuel (d :: read) rest
    else if isPlain c then readShort quote fuel (c :: read) rest
    else .error .badString

/-- What follows a backslash that ends a line: the text behind the break and all white space. -/
def dropContinuation? (s : Text) : Option Text :=
  (dropBreak? (s.dropWhile isInlineSpace)).map fun rest =>
    rest.dropWhile fun c => isInlineSpace c || c == '\n' || c == '\r'

/-- Reads a string of several lines behind its opening quotes. Up to two quotes in a row belong to
the text, also in front of the three that close it. -/
def readLong (quote : Char) : (fuel : Nat) → (read : Text) → Text →
    Except ReadError (String × Text)
  | 0, _, _ | _ + 1, _, [] => .error .badString
  | fuel + 1, read, c :: rest =>
    if c = quote then
      let more := rest.takeWhile (· = quote)
      let behind := rest.drop more.length
      if more.length < 2 then readLong quote fuel (more ++ c :: read) behind
      else if more.length < 5 then
        .ok (String.ofList (read.reverse ++ List.replicate (more.length - 2) quote), behind)
      else .error .badString
    else if c = '\\' ∧ quote = '"' then
      match dropContinuation? rest with
      | some rest => readLong quote fuel read rest
      | none => do
        let (d, rest) ← readEscape rest
        readLong quote fuel (d :: read) rest
    else
      match dropBreak? (c :: rest) with
      | some rest => readLong quote fuel ('\n' :: read) rest
      | none => if isPlain c then readLong quote fuel (c :: read) rest else .error .badString

/-- Reads a string of one line from its opening quote on. -/
def readShortQuoted (s : Text) : Except ReadError (String × Text) :=
  match s with
  | '"' :: rest => readShort '"' s.length [] rest
  | '\'' :: rest => readShort '\'' s.length [] rest
  | _ => .error .badString

/-- Reads a string of any form from its opening quote on. A line break behind three opening quotes
does not count. -/
def readQuoted (s : Text) : Except ReadError (String × Text) :=
  match s with
  | '"' :: '"' :: '"' :: rest => readLong '"' s.length [] ((dropBreak? rest).getD rest)
  | '\'' :: '\'' :: '\'' :: rest => readLong '\'' s.length [] ((dropBreak? rest).getD rest)
  | _ => readShortQuoted s

/-! ## Writing -/

/-- The upper case hexadecimal digit of a number below sixteen. -/
def hexDigit (n : Nat) : Char := Char.ofNat (if n < 10 then 48 + n else 55 + n)

/-- How a character is written between double quotes. -/
def escaped (c : Char) : Text :=
  if c = '\x08' then ['\\', 'b']
  else if c = '\t' then ['\\', 't']
  else if c = '\n' then ['\\', 'n']
  else if c = '\x0c' then ['\\', 'f']
  else if c = '\r' then ['\\', 'r']
  else if c = '"' then ['\\', '"']
  else if c = '\\' then ['\\', '\\']
  else if isPlain c then [c]
  else ['\\', 'u', '0', '0', hexDigit (c.toNat / 16), hexDigit (c.toNat % 16)]

/-- How a text is written between double quotes on one line. -/
def shortText (s : Text) : Text := '"' :: s.flatMap escaped ++ ['"']

/-- How a text goes on between three double quotes behind `run` quotes: line breaks stay, and of
three quotes in a row the last is escaped. -/
def longBody : (run : Nat) → Text → Text
  | _, [] => []
  | run, c :: rest =>
    if c = '"' then
      if run < 2 then c :: longBody (run + 1) rest else '\\' :: c :: longBody 0 rest
    else if c = '\n' then c :: longBody 0 rest
    else escaped c ++ longBody 0 rest

/-- A text between three quotes; a line break follows them where the text has one. -/
def longText (quote : Char) (s body : Text) : Text :=
  List.replicate 3 quote ++ (if s.contains '\n' then ['\n'] else []) ++ body
    ++ List.replicate 3 quote

/-- The longest run of a character in a text behind a run of `run`. -/
def longestRun (c : Char) : (run : Nat) → Text → Nat
  | run, [] => run
  | run, d :: rest => if d = c then longestRun c (run + 1) rest else max run (longestRun c 0 rest)

/-- A text in quotes: the first of the four forms that needs no escape but for tabs, else one of
those with escapes. -/
def quoted (s : Text) : Text :=
  let oneLine := !s.contains '\n'
  let plain := s.all fun c => isPlain c || c == '\n'
  let straight := plain && !s.contains '\\'
  if straight && oneLine && !s.contains '"' then shortText s
  else if plain && oneLine && !s.contains '\'' then '\'' :: s ++ ['\'']
  else if straight && longestRun '"' 0 s ≤ 2 then longText '"' s (longBody 0 s)
  else if plain && longestRun '\'' 0 s ≤ 2 then longText '\'' s s
  else if oneLine then shortText s
  else longText '"' s (longBody 0 s)

/-- The text of an array of texts: on one line up to one text, else with a line for each text,
indented, and a comma behind each. -/
def arrayText : List Text → Text
  | [] => ['[', ']']
  | [s] => '[' :: quoted s ++ [']']
  | texts =>
    '[' :: '\n' :: texts.flatMap (fun s => "    ".toList ++ quoted s ++ [',', '\n']) ++ [']']

/-- The lines of an entry whose value is an array of texts. -/
def writeEntry (name : String) (texts : List String) : String :=
  name ++ " = " ++ String.ofList (arrayText (texts.map String.toList)) ++ "\n"

end FeatureTransform.Toml
