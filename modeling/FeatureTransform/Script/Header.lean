import FeatureTransform.Declaration.Resolve
import FeatureTransform.Script.Basic

/-!
# Reading a script

The lines of a script are read up to ten empty ones in a row. Of the lines read, those that begin
with `--#` are header lines, taken one after another: the last name and the last group count, the
first declaration of a name counts, and a line that cannot be used is put aside and changes nothing
else.
-/

namespace FeatureTransform

/-! ## The lines of a script -/

/-- What a header line begins with. -/
def headerMark : Text := ['-', '-', '#']

/-- How many empty lines in a row end the reading. -/
def maxBlankRun : Nat := 10

/-- The lines that are read; `run` counts the empty lines just before. -/
def consumedAfter (run : Nat) : List Text → List Text
  | [] => []
  | line :: rest =>
    let run := if line = [] then run + 1 else 0
    if maxBlankRun ≤ run then [line] else line :: consumedAfter run rest

/-- The lines up to and including ten empty ones in a row. -/
def consumed (lines : List Text) : List Text := consumedAfter 0 lines

/-- What a header line says, without its mark. -/
def headerContent? (line : Text) : Option Text := Text.dropStart? headerMark line

/-! ## Header lines -/

/-- What a header line means. -/
inductive HeaderEntry where
  /-- the script's group -/
  | group (group : Text)
  /-- the script's name -/
  | name (name : Text)
  /-- a declaration -/
  | declaration (d : Declaration)

/-- The entry that a key of the header makes of a value, if there is such a key. -/
def entryOfKey (key value : Text) : Option HeaderEntry :=
  match String.ofList (Text.lower (Text.trim key)) with
  | "group" => some (.group (Text.trim value))
  | "name" => some (.name (Text.trim value))
  | _ => none

/-- What a header line means. Behind the `=` the words `name` and `group` are always keys; in front
of it they are, unless the line as a whole declares something. -/
def HeaderEntry.of (content : Text) : Except DeclarationError HeaderEntry := do
  let (token, type) ← splitDeclaration content
  match entryOfKey type token with
  | some entry => return entry
  | none =>
    -- a line like `name=string` declares a parameter that is called so
    match resolveText content, entryOfKey token type with
    | .ok d, _ => return .declaration d
    | .error _, some entry => return entry
    | .error e, none => throw e

/-- The letters and digits of ASCII that a name has, in lower case. -/
def idOf (name : Text) : String :=
  String.ofList ((Text.lower name).filter Char.isAlphanum)

/-- What the header lines read so far have said. -/
structure Header where
  /-- the script's id -/
  id : String
  /-- the script's name -/
  displayName : String
  /-- the script's group -/
  group : String
  /-- the parameters declared -/
  parameters : List Parameter
  /-- the outputs declared -/
  outputs : List Output
  /-- the lines rejected -/
  rejected : List (String × HeaderError)

namespace Header

/-- The header of a script that is called so unless a line says otherwise. -/
def initial (id displayName : String) : Header :=
  { id := id, displayName := displayName, group := "", parameters := [], outputs := []
    rejected := [] }

/-- Whether a name is declared. -/
def declares (header : Header) (name : String) : Bool :=
  header.parameters.any (·.name = name) || header.outputs.any (·.name = name)

/-- The header with one more declaration, whose name has to be new. -/
def add (header : Header) (d : Declaration) : Except HeaderError Header :=
  if header.declares d.name then .error (.duplicate d.name)
  else
    match d with
    | .parameter p => .ok { header with parameters := header.parameters ++ [p] }
    | .output o => .ok { header with outputs := header.outputs ++ [o] }

/-- The header after one more line, if the line can be used. -/
def accept (header : Header) (content : Text) : Except HeaderError Header :=
  match HeaderEntry.of content with
  | .error e => .error (.declaration e)
  | .ok (.group group) => .ok { header with group := String.ofList group }
  | .ok (.name name) => .ok { header with id := idOf name, displayName := labelOf name }
  | .ok (.declaration d) => header.add d

/-- The header after one more line of the script. -/
def feed (header : Header) (line : Text) : Header :=
  match headerContent? line with
  | none => header
  | some content =>
    match header.accept content with
    | .ok header => header
    | .error e => { header with rejected := header.rejected ++ [(String.ofList line, e)] }

end Header

/-! ## Whole scripts -/

namespace Script

/-- The script whose lines are given, called so unless its header says otherwise. -/
def ofLines (id displayName : String) (origin : Origin) (lines : List Text) : Script :=
  let lines := consumed lines
  let header := lines.foldl Header.feed (Header.initial id displayName)
  { id := header.id
    displayName := header.displayName
    group := header.group
    parameters := header.parameters
    outputs := header.outputs
    text := String.ofList (lines.flatMap (· ++ ['\n']))
    body := String.ofList (Text.join ['\n'] (lines.filter fun l => (headerContent? l).isNone))
    rejected := header.rejected
    origin := origin }

/-- The lines of a text given directly: cut at every newline, without the carriage returns at
their ends. -/
def sourceLines (source : Text) : List Text :=
  (Text.splitAll '\n' source).map (Text.trimEndBy (· == '\r'))

/-- The script of a text given directly. -/
def ofSource (source : String) : Script :=
  ofLines "unnamedalgorithm" "[Unnamed algorithm]" (.inline source) (sourceLines source.toList)

/-- A file name without its extension. -/
def stemOf (fileName : Text) : Text :=
  match Text.splitLast? '.' fileName with
  | some (stem, _) => stem
  | none => fileName

/-- The script of a named text: the name without its extension is the default, and white space
around the lines does not count. -/
def ofNamed (fileName : String) (text : String) (origin : Origin) : Script :=
  let stem := stemOf fileName.toList
  ofLines (idOf stem) (labelOf stem) origin ((Text.lines text.toList).map Text.trim)

end Script

end FeatureTransform
