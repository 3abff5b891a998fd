import FeatureTransform.Text.Blank

/-!
# Cutting texts at separators

A separator is one character of a text, or one byte of a byte string. Cutting loses the separators
and nothing else.
-/

namespace FeatureTransform.Text

variable {α : Type}

section

variable [DecidableEq α]

/-- What stands before and after the first `sep`, if there is one. -/
def splitOnce? (sep : α) : List α → Option (List α × List α)
  | [] => none
  | c :: rest =>
    if c = sep then some ([], rest)
    else (splitOnce? sep rest).map fun (before, after) => (c :: before, after)

/-- What stands before and after the last `sep`, if there is one. -/
def splitLast? (sep : α) : List α → Option (List α × List α)
  | [] => none
  | c :: rest =>
    match splitLast? sep rest with
    | some (before, after) => some (c :: before, after)
    | none => if c = sep then some ([], rest) else none

/-- The pieces between separators: always one more than there are separators. -/
def splitAll (sep : α) : List α → List (List α)
  | [] => [[]]
  | c :: rest =>
    if c = sep then [] :: splitAll sep rest
    else
      match splitAll sep rest with
      | [] => [[c]]
      | piece :: pieces => (c :: piece) :: pieces

end

/-- The pieces one after another with `sep` between neighbours. -/
def join (sep : List α) : List (List α) → List α
  | [] => []
  | [s] => s
  | s :: rest => s ++ sep ++ join sep rest

/-- The lines of a text: cut after each newline, a carriage return before the newline belonging to
it; a text that ends with a newline has no further, empty line. -/
def lines (s : Text) : List Text :=
  let pieces := splitAll '\n' s
  let ended := pieces.dropLast.map fun line =>
    if line.getLast? = some '\r' then line.dropLast else line
  match pieces.getLast? with
  | none | some [] => ended
  | some last => ended ++ [last]

/-- The text behind `start`, if it begins with `start`. -/
def dropStart? : (start : Text) → Text → Option Text
  | [], s => some s
  | _ :: _, [] => none
  | c :: start, d :: s => if c = d then dropStart? start s else none

end FeatureTransform.Text

namespace FeatureTransform

/-- The text filled with blanks on the right up to `width` characters. -/
def padTo (width : Nat) (s : String) : String :=
  s ++ String.ofList (List.replicate (width - s.length) ' ')

end FeatureTransform
