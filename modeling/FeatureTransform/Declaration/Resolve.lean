import FeatureTransform.Declaration.Basic
import FeatureTransform.Decimal.Read
import FeatureTransform.Text.Case
import FeatureTransform.Text.Split

/-!
# Resolving a header line

A header line `name=type` is cut at its first `=`. The type is up to three words and a constraint:
`optional`, then `output` and the kind of output, or the kind of parameter. A word is the run of
word characters at the front, in lower case; one colon or white space divides it from the rest.
Outputs are tried first, so the destinations, which are parameters, are spelt like outputs.
-/

namespace FeatureTransform

/-- The names that a declaration may not have, because the host defines them in every session. -/
def reservedNames : List String := ["func", "json", "feedback", "print", "__luaproc_dispatch"]

/-- A header line cut at its first `=`. -/
def splitDeclaration (line : Text) : Except DeclarationError (Text × Text) :=
  match Text.splitOnce? '=' line with
  | some parts => .ok parts
  | none => .error .missingSeparator

/-- The word at the front of a text in lower case, and what stands behind it: one colon and the
white space around the rest are taken off. -/
def splitKeyword (s : Text) : String × Text :=
  let rest := s.dropWhile Char.isWord
  let rest :=
    match rest with
    | ':' :: rest => rest
    | rest => rest
  (String.ofList (Text.lower (s.takeWhile Char.isWord)), Text.trim rest)

/-- The type of a header line, its words told apart. -/
structure TypeText where
  /-- whether the first word is `optional` -/
  optional : Bool
  /-- the word that names the kind -/
  keyword : String
  /-- what stands behind it -/
  constraint : Text

/-- The words of a type. `optional` alone is a kind like any other word. -/
def TypeText.of (s : Text) : TypeText :=
  let (keyword, rest) := splitKeyword (Text.trim s)
  if keyword = "optional" ∧ rest ≠ [] then
    let (keyword, rest) := splitKeyword rest
    { optional := true, keyword := keyword, constraint := rest }
  else { optional := false, keyword := keyword, constraint := rest }

/-! ## Constraints by kind -/

/-- The trimmed text, if it is not empty. -/
def textOrNone (s : Text) : Option String := (Text.nonEmpty? s).map String.ofList

/-- The geometry restriction of that name; no name is no restriction. -/
def Geometry.parse? (s : Text) : Option Geometry :=
  match String.ofList (Text.lower (Text.trim s)) with
  | "" | "any" => some .any
  | "point" => some .point
  | "line" => some .line
  | "polygon" => some .polygon
  | _ => none

/-- The type of layers of that name; without a name they are vector layers. -/
def LayerType.parse? (s : Text) : Option LayerType :=
  match String.ofList (Text.lower (Text.trim s)) with
  | "" | "vector" => some .vector
  | "raster" => some .raster
  | _ => none

/-- One part of the constraint of a number; an empty or missing part sets nothing. -/
def numberPart (part? : Option Text) : Except ConstraintError (Option Float) :=
  match part?.bind Text.nonEmpty? with
  | none => .ok none
  | some text =>
    match Decimal.read? text with
    | some f => .ok (some f)
    | none => .error (.notANumber (String.ofList text))

/-- The kind `number` under the constraint `default;min;max`. -/
def numberKind (s : Text) : Except ConstraintError Kind :=
  -- without any text there are no parts, rather than one that is empty
  let parts := if (Text.trim s).isEmpty then [] else Text.splitAll ';' s
  if 3 < parts.length then .error .tooManyParts
  else do
    let default? ← numberPart parts[0]?
    let min? ← numberPart parts[1]?
    let max? ← numberPart parts[2]?
    match min?, max? with
    | some low, some high =>
      if high < low then .error (.emptyRange low high)
      else .ok (.number default? min? max?)
    | _, _ => .ok (.number default? min? max?)

/-- The kind `enum` over choices divided by semicolons; empty ones do not count. -/
def choiceKind (s : Text) : Except ConstraintError Kind :=
  match (Text.splitAll ';' s).filterMap textOrNone with
  | [] => .error .noChoice
  | choices => .ok (.choice choices)

/-- The kind `boolean` with its default. -/
def booleanKind (s : Text) : Except ConstraintError Kind :=
  match String.ofList (Text.lower (Text.trim s)) with
  | "" | "false" => .ok (.boolean false)
  | "true" => .ok (.boolean true)
  | other => .error (.notABoolean other)

/-- The kind of parameter that a word and a constraint name, if the word names any. -/
def kindOf? (keyword : String) (s : Text) : Option (Except ConstraintError Kind) :=
  match keyword with
  | "raster" => some (.ok .raster)
  | "vector" =>
    match Geometry.parse? s with
    | some geometry => some (.ok (.vector geometry))
    | none => some (.error (.unknownGeometry (String.ofList s)))
  | "extent" => some (.ok .extent)
  | "crs" => some (.ok (.crs (textOrNone s)))
  | "field" => some (.ok (.field (textOrNone s)))
  | "string" => some (.ok (.string (textOrNone s)))
  | "file" => some (.ok (.file (textOrNone s)))
  | "number" => some (numberKind s)
  | "enum" => some (choiceKind s)
  | "boolean" => some (booleanKind s)
  | "multiple" =>
    match LayerType.parse? s with
    | some type => some (.ok (.layers type))
    | none => some (.error (.unknownLayerType (String.ofList s)))
  | _ => none

/-! ## Lines -/

/-- What `output` and a further word declare: a destination, which is a parameter, or an output. -/
def outputOf? (name : Text) (type : TypeText) : Option Declaration :=
  if type.keyword = "output" then
    let (word, rest) := splitKeyword type.constraint
    let destination (kind : Kind) : Declaration :=
      .parameter
        { name := String.ofList name, description := labelOf name
          optional := type.optional, kind := kind }
    let output (kind : OutputKind) : Declaration :=
      .output { name := String.ofList name, description := labelOf name, kind := kind }
    match word with
    | "raster" => some (destination .rasterDestination)
    | "vector" => some (destination .vectorDestination)
    | "file" => some (destination (.fileDestination (textOrNone rest)))
    | "number" => some (output .number)
    | "string" => some (output .string)
    | "html" => some (output .html)
    | _ => none
  else none

/-- The word that names a kind today; `selection` is the former spelling of `enum`. -/
def currentKeyword (keyword : String) : String :=
  if keyword = "selection" then "enum" else keyword

/-- What a name and a type declare. -/
def declare (name : Text) (type : TypeText) : Except DeclarationError Declaration :=
  match outputOf? name type with
  | some declaration => .ok declaration
  | none =>
    let keyword := currentKeyword type.keyword
    match kindOf? keyword type.constraint with
    | none => .error (.unknownType keyword)
    | some (.error cause) => .error (.invalidConstraint keyword cause)
    | some (.ok kind) =>
      .ok (.parameter
        { name := String.ofList name, description := labelOf name
          optional := type.optional, kind := kind })

/-- What a header line, without the mark in front, declares. -/
def resolveText (line : Text) : Except DeclarationError Declaration := do
  let (token, type) ← splitDeclaration line
  match Text.nonEmpty? token with
  | none => .error .emptyName
  | some name =>
    -- the name is looked at before the type
    if String.ofList name ∈ reservedNames then .error (.reservedName (String.ofList name))
    else declare name (TypeText.of type)

/-- What a header line, without the mark in front, declares. -/
def resolve (line : String) : Except DeclarationError Declaration := resolveText line.toList

end FeatureTransform
