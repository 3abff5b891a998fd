import FeatureTransform.Decimal.Layout
import FeatureTransform.Json.Basic
import FeatureTransform.Text.Blank

/-!
# Writing JSON

The compact form has no white space; the indented form puts every item and member on a line of its
own. Strings escape the quote, the backslash and the characters below U+0020, and nothing else.
-/

namespace FeatureTransform.Json

/-- The lower case hexadecimal digit of a number below sixteen. -/
def hexDigit (n : Nat) : Char := Char.ofNat (if n < 10 then 48 + n else 87 + n)

/-- How a character is written inside a string. -/
def escaped (c : Char) : Text :=
  if c = '"' then ['\\', '"']
  else if c = '\\' then ['\\', '\\']
  else if c = '\n' then ['\\', 'n']
  else if c = '\r' then ['\\', 'r']
  else if c = '\t' then ['\\', 't']
  else if c = '\x08' then ['\\', 'b']
  else if c = '\x0c' then ['\\', 'f']
  else if c.toNat < 0x20 then
    ['\\', 'u', '0', '0', hexDigit (c.toNat / 16), hexDigit (c.toNat % 16)]
  else [c]

/-- A text in quotes. -/
def quoted (s : String) : Text := '"' :: s.toList.flatMap escaped ++ ['"']

/-- A number: an integer by its digits, a double by the fewest digits that read back. -/
def Number.text : Number → Text
  | .integer i => Decimal.intText i.value
  | .double d => Decimal.json.write d.value

/-! ## The compact form -/

mutual

/-- The compact form of a value. -/
def text : Json → Text
  | .null => ['n', 'u', 'l', 'l']
  | .bool true => ['t', 'r', 'u', 'e']
  | .bool false => ['f', 'a', 'l', 's', 'e']
  | .number n => n.text
  | .string s => quoted s
  | .array [] => ['[', ']']
  | .array (v :: rest) => '[' :: text v ++ itemsText rest
  | .object [] => ['\x7b', '\x7d']
  | .object ((name, v) :: rest) => '\x7b' :: quoted name ++ ':' :: text v ++ membersText rest

/-- The items that follow the first, and the closing bracket. -/
def itemsText : List Json → Text
  | [] => [']']
  | v :: rest => ',' :: text v ++ itemsText rest

/-- The members that follow the first, and the closing brace. -/
def membersText : List (String × Json) → Text
  | [] => ['\x7d']
  | (name, v) :: rest => ',' :: quoted name ++ ':' :: text v ++ membersText rest

end

/-- The compact JSON text of a value. -/
def write (v : Json) : String := String.ofList v.text

/-! ## The indented form -/

/-- A line break and the blanks that open a line at this depth. -/
def newLine (depth : Nat) : Text := '\n' :: List.replicate (2 * depth) ' '

mutual

/-- The indented form of a value that stands at the given depth. -/
def indentedText (depth : Nat) : Json → Text
  | .array (v :: rest) =>
    '[' :: newLine (depth + 1) ++ indentedText (depth + 1) v ++ indentedItems depth rest
  | .object ((name, v) :: rest) =>
    '\x7b' :: newLine (depth + 1) ++ quoted name ++ ':' :: ' ' :: indentedText (depth + 1) v
      ++ indentedMembers depth rest
  | .null => text .null
  | .bool b => text (.bool b)
  | .number n => n.text
  | .string s => quoted s
  | .array [] => ['[', ']']
  | .object [] => ['\x7b', '\x7d']

/-- The items that follow the first, and the closing bracket of an array at the given depth. -/
def indentedItems (depth : Nat) : List Json → Text
  | [] => newLine depth ++ [']']
  | v :: rest =>
    ',' :: newLine (depth + 1) ++ indentedText (depth + 1) v ++ indentedItems depth rest

/-- The members that follow the first, and the closing brace of an object at the given depth. -/
def indentedMembers (depth : Nat) : List (String × Json) → Text
  | [] => newLine depth ++ ['\x7d']
  | (name, v) :: rest =>
    ',' :: newLine (depth + 1) ++ quoted name ++ ':' :: ' ' :: indentedText (depth + 1) v
      ++ indentedMembers depth rest

end

/-- The indented JSON text of a value. -/
def writeIndented (v : Json) : String := String.ofList (indentedText 0 v)

end FeatureTransform.Json
