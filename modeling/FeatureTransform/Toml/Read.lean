import FeatureTransform.Toml.Draft
import FeatureTransform.Toml.Quoted
import FeatureTransform.Toml.Scalar

/-!
# Reading TOML

A document is read line by line: empty lines and comments, headers, and entries, whose values may
span lines where they are arrays or strings in three quotes. Arrays and inline tables may be nested
80 deep.
-/

namespace FeatureTransform.Toml

/-! ## Between values -/

/-- The text without the blanks and tabs in front of it. -/
def skipInlineSpace (s : Text) : Text := s.dropWhile isInlineSpace

/-- The text behind a comment, if it begins with one: up to the line break. -/
def skipComment : Text → Text
  | '#' :: rest => rest.dropWhile isPlain
  | s => s

/-- The text behind the end of a line: blanks, a comment, and the line break unless the text
ends. -/
def readLineEnd (s : Text) : Except ReadError Text :=
  match skipComment (skipInlineSpace s) with
  | [] => .ok []
  | rest =>
    match dropBreak? rest with
    | some rest => .ok rest
    | none => .error .badEnd

/-- The text without white space, line breaks and comments in front of it. -/
def skipLines : (fuel : Nat) → Text → Text
  | 0, s => s
  | fuel + 1, s =>
    let s := skipComment (skipInlineSpace s)
    match dropBreak? s with
    | some rest => skipLines fuel rest
    | none => s

/-! ## Keys -/

/-- Whether a character may stand in a key without quotes. -/
def isKeyCharacter (c : Char) : Bool := c.isAlphanum || c == '_' || c == '-'

/-- Reads one name of a key. -/
def readName (s : Text) : Except ReadError (String × Text) :=
  match s with
  | '"' :: _ | '\'' :: _ => readShortQuoted s
  | _ =>
    let name := s.takeWhile isKeyCharacter
    if name.isEmpty then .error .noKey else .ok (String.ofList name, s.drop name.length)

/-- Reads a key: names with dots between them. -/
def readKey : (fuel : Nat) → Text → Except ReadError (List String × Text)
  | 0, _ => .error .noKey
  | fuel + 1, s => do
    let (name, rest) ← readName (skipInlineSpace s)
    match skipInlineSpace rest with
    | '.' :: rest => do
      let (names, rest) ← readKey fuel rest
      return (name :: names, rest)
    | rest => return ([name], rest)

/-! ## Values -/

mutual

/-- Reads a value; `room` counts how many arrays and inline tables may still be opened around each
other. The fuel bounds the number of steps. -/
def readValue : (fuel room : Nat) → Text → Except ReadError (Toml × Text)
  | 0, _, _ => .error .noValue
  | fuel + 1, room, s =>
    match s, room with
    | '"' :: _, _ | '\'' :: _, _ => do
      let (text, rest) ← readQuoted s
      return (.string text, rest)
    | '[' :: _, 0 | '\x7b' :: _, 0 => .error .tooDeep
    | '[' :: rest, room + 1 => do
      let (items, rest) ← readItems fuel room rest
      return (.array items, rest)
    | '\x7b' :: rest, room + 1 =>
      match skipInlineSpace rest with
      | '\x7d' :: rest => .ok (.table [], rest)
      | rest => do
        let (entries, rest) ← readEntries fuel room [] rest
        return (.table (Draft.finishEntries entries), rest)
    | _, _ => readWord s

/-- Reads the items of an array up to its closing bracket. A comma may follow the last item. -/
def readItems : (fuel room : Nat) → Text → Except ReadError (List Toml × Text)
  | 0, _, _ => .error .badArray
  | fuel + 1, room, s =>
    match skipLines s.length s with
    | [] => .error .badArray
    | ']' :: rest => .ok ([], rest)
    | s => do
      let (item, rest) ← readValue fuel room s
      match skipLines rest.length rest with
      | ']' :: rest => return ([item], rest)
      | ',' :: rest => do
        let (items, rest) ← readItems fuel room rest
        return (item :: items, rest)
      | _ => .error .badArray

/-- Reads the entries of an inline table up to its closing brace. -/
def readEntries : (fuel room : Nat) → (read : Draft.Entries) → Text →
    Except ReadError (Draft.Entries × Text)
  | 0, _, _, _ => .error .badInlineTable
  | fuel + 1, room, read, s => do
    let (key, v, rest) ← readEntry fuel room s
    let read ← Draft.enter v key read
    match skipInlineSpace rest with
    | '\x7d' :: rest => return (read, rest)
    | ',' :: rest => readEntries fuel room read rest
    | _ => .error .badInlineTable

/-- Reads an entry: a key, an equals sign and a value. -/
def readEntry : (fuel room : Nat) → Text → Except ReadError (List String × Toml × Text)
  | 0, _, _ => .error .noKey
  | fuel + 1, room, s => do
    let (key, rest) ← readKey s.length s
    match rest with
    | '=' :: rest => do
      let (v, rest) ← readValue fuel room (skipInlineSpace rest)
      return (key, v, rest)
    | _ => .error .noValue

end

/-! ## Documents -/

/-- How many arrays and inline tables may be opened around each other. -/
def maxDepth : Nat := 80

/-- A header: the names of the table it opens, and whether it is one of several. -/
def readHeader (s : Text) : Except ReadError (List String × Bool × Text) :=
  match s with
  | '[' :: '[' :: rest => do
    match ← readKey rest.length rest with
    | (key, ']' :: ']' :: rest) => return (key, true, rest)
    | _ => .error .badHeader
  | '[' :: rest => do
    match ← readKey rest.length rest with
    | (key, ']' :: rest) => return (key, false, rest)
    | _ => .error .badHeader
  | _ => .error .badHeader

/-- Opens the table of a header. -/
def openHeader (key : List String) (several : Bool) (entries : Draft.Entries) :
    Except ReadError Draft.Entries :=
  match key.getLast? with
  | none => .error .noKey
  | some name =>
    Draft.within (if several then Draft.openNext name else Draft.openTable name) key.dropLast
      entries

/-- Reads lines up to the end of the document; `header` leads to the table to which entries
belong. -/
def readLines : (fuel : Nat) → (header : List String) → (read : Draft.Entries) → Text →
    Except ReadError Draft.Entries
  | 0, _, read, _ => .ok read
  | fuel + 1, header, read, s =>
    match skipLines s.length s with
    | [] => .ok read
    | '[' :: rest => do
      let (key, several, rest) ← readHeader ('[' :: rest)
      let read ← openHeader key several read
      readLines fuel key read (← readLineEnd rest)
    | s => do
      let (key, v, rest) ← readEntry (3 * s.length + 3) maxDepth s
      let read ← Draft.within (Draft.enter v key) header read
      readLines fuel header read (← readLineEnd rest)

/-- The table that a TOML text holds. A byte order mark in front does not count. -/
def read (text : String) : Except ReadError Toml := do
  let s :=
    match text.toList with
    | '\uFEFF' :: s => s
    | s => s
  return .table (Draft.finishEntries (← readLines (s.length + 1) [] [] s))

end FeatureTransform.Toml
