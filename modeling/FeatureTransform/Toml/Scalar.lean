import FeatureTransform.Decimal.Read
import FeatureTransform.Text.Split
import FeatureTransform.Toml.Basic

/-!
# TOML scalars

Numbers, truth values, dates and times are words: they hold no blank, with one exception between a
date and a time. In a number, single underscores may stand between digits. A date has to exist.
-/

namespace FeatureTransform.Toml

/-! ## Numbers -/

/-- The digits of a text in which single underscores may stand between them. -/
def digitsOf? (isDigit : Char → Bool) : Text → Option Text
  | [] => none
  | [c] => if isDigit c then some [c] else none
  | c :: '_' :: rest =>
    if isDigit c then (digitsOf? isDigit rest).map (c :: ·) else none
  | c :: rest => if isDigit c then (digitsOf? isDigit rest).map (c :: ·) else none

/-- The number that digits of a base stand for. -/
def valueIn (base : Nat) (digits : Text) : Nat :=
  digits.foldl (fun n c => base * n + (if c.isDigit then c.toNat - 48 else c.toLower.toNat - 87)) 0

/-- Decimal digits that do not begin with a needless zero. -/
def wholeDigits? (s : Text) : Option Text :=
  match digitsOf? Decimal.isDigit s with
  | some ('0' :: _ :: _) => none
  | digits? => digits?

/-- The integers that 128 bits hold, signed or not. -/
def ofInt? (i : Int) : Option Toml :=
  if -0x80000000000000000000000000000000 ≤ i ∧ i < 0x100000000000000000000000000000000 then
    some (.integer i)
  else none

/-- The integer that a word stands for. -/
def readInteger? (s : Text) : Option Toml :=
  match s with
  | '0' :: 'x' :: digits =>
    (digitsOf? (fun c => c.isDigit || ('a' ≤ c.toLower && c.toLower ≤ 'f')) digits).bind
      fun digits => ofInt? (valueIn 16 digits)
  | '0' :: 'o' :: digits =>
    (digitsOf? (fun c => '0' ≤ c && c ≤ '7') digits).bind fun digits => ofInt? (valueIn 8 digits)
  | '0' :: 'b' :: digits =>
    (digitsOf? (fun c => c == '0' || c == '1') digits).bind fun digits => ofInt? (valueIn 2 digits)
  | _ =>
    let (negative, digits) := Decimal.spanSign s
    (wholeDigits? digits).bind fun digits =>
      let n : Int := valueIn 10 digits
      ofInt? (if negative then -n else n)

/-- The digits of an exponent behind its letter, with their sign. -/
def exponent? (s : Text) : Option Int :=
  let (negative, digits) := Decimal.spanSign s
  (digitsOf? Decimal.isDigit digits).map fun digits =>
    let n : Int := valueIn 10 digits
    if negative then -n else n

/-- The double that an unsigned word with a point or an exponent stands for. -/
def magnitude? (s : Text) : Option Float :=
  if s = ['i', 'n', 'f'] then some (1.0 / 0.0)
  else if s = ['n', 'a', 'n'] then some (0.0 / 0.0)
  else
    let front := s.takeWhile fun c => c ≠ 'e' && c ≠ 'E'
    let exponent := (s.drop front.length).drop 1
    if s.length ≤ front.length + 1 ∧ !front.contains '.' then none
    else do
      let (whole, places) ←
        match Text.splitOnce? '.' front with
        | some (whole, places) => do pure (← wholeDigits? whole, ← digitsOf? Decimal.isDigit places)
        | none => do pure (← wholeDigits? front, [])
      let scale ← if s.length = front.length then some 0 else exponent? exponent
      let f := Decimal.nearest (valueIn 10 (whole ++ places)) (scale - places.length)
      if f.isFinite then some f else none

/-- The double that a word stands for. -/
def readFloat? (s : Text) : Option Toml :=
  let (negative, s) := Decimal.spanSign s
  (magnitude? s).map fun f => .float (if negative then -f else f)

/-! ## Dates and times -/

/-- The number of two digits. -/
def twoDigits? : Text → Option Nat
  | [a, b] => if a.isDigit && b.isDigit then some (valueIn 10 [a, b]) else none
  | _ => none

/-- How many days a month has. -/
def daysIn (year month : Nat) : Nat :=
  if month = 2 then
    if year % 4 = 0 ∧ (year % 100 ≠ 0 ∨ year % 400 = 0) then 29 else 28
  else if month = 4 ∨ month = 6 ∨ month = 9 ∨ month = 11 then 30
  else 31

/-- Whether the text is a date. -/
def isDate (s : Text) : Bool :=
  match Text.splitAll '-' s with
  | [year, month, day] =>
    match twoDigits? month, twoDigits? day with
    | some month, some day =>
      year.length == 4 && year.all Char.isDigit && 1 ≤ month && month ≤ 12 && 1 ≤ day
        && day ≤ daysIn (valueIn 10 year) month
    | _, _ => false
  | _ => false

/-- Whether the text is a number of two digits below a bound. -/
def isBelow (bound : Nat) (s : Text) : Bool := (twoDigits? s).any (· < bound)

/-- Whether the text is a time of day; seconds may have decimal places, and 60 of them are
allowed. -/
def isTime (s : Text) : Bool :=
  match Text.splitAll ':' s with
  | [hour, minute, second] =>
    let places := second.drop 2
    isBelow 24 hour && isBelow 60 minute && isBelow 61 (second.take 2)
      && (places.isEmpty || (places.head? == some '.' && 1 < places.length
        && (places.drop 1).all Char.isDigit))
  | _ => false

/-- Whether the text is the distance of a time from universal time, sign excluded. -/
def isOffset (s : Text) : Bool :=
  match Text.splitAll ':' s with
  | [hour, minute] => isBelow 24 hour && isBelow 60 minute
  | _ => false

/-- Whether the text is a time of day, with a zone or without. -/
def isZonedTime (s : Text) : Bool :=
  let time := s.takeWhile fun c => c.isDigit || c == ':' || c == '.'
  match s.drop time.length with
  | [] => isTime time
  | ['Z'] | ['z'] => isTime time
  | c :: offset => (c == '+' || c == '-') && isTime time && isOffset offset

/-- Whether the text is a date, a time or both. -/
def isMoment (s : Text) : Bool :=
  let (date, rest) := (s.take 10, s.drop 10)
  isTime s || (isDate date &&
    match rest with
    | [] => true
    | c :: time => (c == 'T' || c == 't' || c == ' ') && isZonedTime time)

/-! ## Words -/

/-- Whether a character may stand in a word. -/
def isWordCharacter (c : Char) : Bool :=
  c.isAlphanum || c == '_' || c == '-' || c == '+' || c == '.' || c == ':'

/-- The word in front of a text, and the rest. A time one blank behind a date belongs to the
word. -/
def takeWord (s : Text) : Text × Text :=
  let word := s.takeWhile isWordCharacter
  let rest := s.drop word.length
  match isDate word, rest with
  | true, ' ' :: more =>
    let time := more.takeWhile isWordCharacter
    if time.head?.any Char.isDigit then (word ++ ' ' :: time, more.drop time.length)
    else (word, rest)
  | _, _ => (word, rest)

/-- The value that a word stands for. -/
def ofWord? (s : Text) : Option Toml :=
  if s = "true".toList then some (.boolean true)
  else if s = "false".toList then some (.boolean false)
  else if isMoment s then some (.moment (String.ofList s))
  else (readInteger? s).or (readFloat? s)

/-- Reads a value that is a word. -/
def readWord (s : Text) : Except ReadError (Toml × Text) :=
  let (word, rest) := takeWord s
  match ofWord? word with
  | some value => .ok (value, rest)
  | none => if word.isEmpty then .error .noValue else .error (.badScalar (String.ofList word))

end FeatureTransform.Toml
