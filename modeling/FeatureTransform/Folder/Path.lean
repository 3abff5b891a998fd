import FeatureTransform.Text.Split
import FeatureTransform.Text.Utf8

/-!
# Paths

Names and paths are bytes. Most are the bytes of a text, but none need be: a name that is no text
is still the name of a file, only it cannot be said in words. A path is kept as it was written and
compared by its components: repeated and trailing slashes and the `.` between names count for
nothing, a `.` in front and every `..` count.
-/

namespace FeatureTransform

/-! ## Names -/

/-- The name of a file or a folder. -/
structure FileName where
  /-- its bytes -/
  bytes : List UInt8
deriving DecidableEq, Repr

namespace FileName

/-- The name that is spelt by a text. -/
def ofText (s : String) : FileName := ⟨Utf8.bytesOf s⟩

instance : Coe String FileName := ⟨ofText⟩

/-- The text that spells the name, if there is one. -/
def text? (name : FileName) : Option String := String.fromUTF8? ⟨name.bytes.toArray⟩

/-- The name as it is shown: U+FFFD stands for what is no text. -/
def text (name : FileName) : String := Utf8.lossy ⟨name.bytes.toArray⟩

-- names are in the order of their bytes, which for texts is that of the code points
instance : LT FileName := ⟨fun a b => a.bytes < b.bytes⟩

instance : LE FileName := ⟨fun a b => a.bytes ≤ b.bytes⟩

instance : DecidableLE FileName := fun a b => inferInstanceAs (Decidable (a.bytes ≤ b.bytes))

end FileName

/-! ## Paths -/

/-- A step of a path. -/
inductive Component where
  /-- the slash in front -/
  | root
  /-- the `.` in front -/
  | current
  /-- `..` -/
  | parent
  /-- a name -/
  | normal (name : FileName)
deriving DecidableEq, Repr

/-- A path as it was written. -/
structure Path where
  /-- The path that is spelt by some bytes. -/
  ofBytes ::
  /-- its bytes -/
  bytes : List UInt8
deriving DecidableEq, Repr

namespace Path

/-- The byte that stands between names. -/
def slash : UInt8 := 0x2F

/-- The byte of which `.` and `..` are made. -/
def dot : UInt8 := 0x2E

/-- The path that is spelt by a text. -/
def ofText (s : String) : Path := ⟨Utf8.bytesOf s⟩

instance : Coe String Path := ⟨ofText⟩

/-- The path that is no more than a name. -/
def ofName (name : FileName) : Path := ⟨name.bytes⟩

/-- The text that spells the path, if there is one. -/
def text? (path : Path) : Option String := String.fromUTF8? ⟨path.bytes.toArray⟩

/-- The path as it is shown: U+FFFD stands for what is no text. -/
def text (path : Path) : String := Utf8.lossy ⟨path.bytes.toArray⟩

/-- The step that a piece between slashes stands for; an empty piece and `.` stand for none. -/
def component? (piece : List UInt8) : Option Component :=
  if piece = [] ∨ piece = [dot] then none
  else if piece = [dot, dot] then some .parent
  else some (.normal ⟨piece⟩)

/-- The steps of a path. -/
def components (path : Path) : List Component :=
  let pieces := Text.splitAll slash path.bytes
  let front : List Component :=
    match pieces with
    | [] => []
    | first :: more =>
      -- only in front does nothing before a slash stand for the root, and a dot for itself
      if first = [] ∧ more ≠ [] then [.root] else if first = [dot] then [.current] else []
  front ++ pieces.filterMap component?

/-- Whether two paths have the same steps. -/
def same (p q : Path) : Bool := p.components = q.components

/-- Whether the path starts at the root. -/
def isAbsolute (path : Path) : Bool := path.bytes.head? = some slash

/-- Whether the path ends in a slash. -/
def endsInSlash (path : Path) : Bool := path.bytes.getLast? = some slash

/-- The path `other` inside `path`; an absolute one stands for itself. -/
def join (path other : Path) : Path :=
  if other.isAbsolute || path.bytes.isEmpty then other
  else if path.endsInSlash then ⟨path.bytes ++ other.bytes⟩
  else ⟨path.bytes ++ slash :: other.bytes⟩

/-- The path whose spelling goes on with `ending`. -/
def extend (path : Path) (ending : String) : Path := ⟨path.bytes ++ Utf8.bytesOf ending⟩

/-- The name that the path ends in. -/
def fileName? (path : Path) : Option FileName :=
  match path.components.getLast? with
  | some (.normal name) => some name
  | _ => none

/-- The path without its last step, and without what stands for no step before that. -/
def parent? (path : Path) : Option Path :=
  match Text.splitAll slash path.bytes with
  | [] => none
  | front :: pieces =>
    let isIdle (piece : List UInt8) : Bool := (component? piece).isNone
    match pieces.reverse.dropWhile isIdle with
    | [] => if front = [] then none else some ⟨[]⟩
    | _ :: before =>
      match before.dropWhile isIdle with
      | [] => some ⟨if front = [] then [slash] else front⟩
      | before => some ⟨Text.join [slash] (front :: before.reverse)⟩

/-- The path spelt by a list of names from the root. -/
def ofNames (names : List FileName) : Path :=
  ⟨slash :: Text.join [slash] (names.map FileName.bytes)⟩

/-! ## Paths between quotes -/

/-- Whether a character is shown by its code point: it cannot be seen, or not by itself. -/
def isHidden (c : Char) : Bool :=
  let n := c.toNat
  n < 0x20 || (0x7F ≤ n && n < 0xA0) || n == 0xAD || (0x300 ≤ n && n < 0x370)
    || (0x200B ≤ n && n < 0x2010) || (0x2028 ≤ n && n < 0x202F) || (0x2060 ≤ n && n < 0x2070)
    || (0xE000 ≤ n && n < 0xF900) || (0xFE00 ≤ n && n < 0xFE10) || n == 0xFEFF

/-- How a character is shown between quotes. -/
def quotedCharacter (c : Char) : Text :=
  if c = '"' ∨ c = '\\' then ['\\', c]
  else if c = '\n' then ['\\', 'n']
  else if c = '\r' then ['\\', 'r']
  else if c = '\t' then ['\\', 't']
  else if c = '\x00' then ['\\', '0']
  else if isHidden c then ['\\', 'u', '\x7b'] ++ Nat.toDigits 16 c.toNat ++ ['\x7d']
  else [c]

/-- How a byte that belongs to no character is shown between quotes. -/
def quotedByte (b : UInt8) : Text :=
  ['\\', 'x', (Nat.digitChar (b.toNat / 16)).toUpper, (Nat.digitChar (b.toNat % 16)).toUpper]

/-- How a part of a path is shown between quotes. -/
def quotedPart : Utf8.Part → Text
  | .character c => quotedCharacter c
  | .broken bytes => bytes.flatMap quotedByte

/-- The path between quotes. -/
def quoted (path : Path) : String :=
  String.ofList ('"' :: (Utf8.partsFrom 0 path.bytes).flatMap quotedPart ++ ['"'])

/-! ## Extensions -/

/-- What stands behind the last dot of a file name. A dot in front opens no extension. -/
def extension? (name : Text) : Option Text :=
  if name = ['.', '.'] then none
  else
    match Text.splitLast? '.' name with
    | none | some ([], _) => none
    | some (_, extension) => some extension

end Path

end FeatureTransform
