import FeatureTransform.Folder.Path

/-!
# File trees

The files a program sees, as a value: a tree of folders whose leaves hold bytes. The names in it
are bytes as well, so that a tree may hold files whose names are no texts. A folder keeps its
entries in the order in which a listing shows them, which says nothing about their names. Changing
a tree gives a new tree.
-/

namespace FeatureTransform

/-- A file or a folder. -/
inductive Node where
  /-- a file and its bytes -/
  | file (content : ByteArray)
  /-- a folder and its entries, each name once, in the order of a listing -/
  | folder (entries : List (FileName × Node))

/-- Why a file cannot be read or written. -/
inductive FileError where
  /-- there is nothing at the path -/
  | notFound
  /-- a folder stands where a file is wanted -/
  | isFolder
  /-- a file stands where a folder is wanted -/
  | notFolder
  /-- a file stands where a folder is to be made -/
  | fileExists
  /-- the file holds no UTF-8 text -/
  | notText
deriving DecidableEq, Repr

/-- The sentence that describes the error. -/
def FileError.message : FileError → String
  | .notFound => "No such file or directory (os error 2)"
  | .isFolder => "Is a directory (os error 21)"
  | .notFolder => "Not a directory (os error 20)"
  | .fileExists => "File exists (os error 17)"
  | .notText => "stream did not contain valid UTF-8"

namespace Node

/-- The entry of that name. -/
def child? (name : FileName) (entries : List (FileName × Node)) : Option Node := entries.lookup name

/-- The node that a list of names leads to. -/
def find (node : Node) : List FileName → Except FileError Node
  | [] => .ok node
  | name :: names =>
    match node with
    | .file _ => .error .notFolder
    | .folder entries =>
      match child? name entries with
      | none => .error .notFound
      | some next => next.find names

/-- The entries with one of them replaced, or added at the end. -/
def setEntry (name : FileName) (node : Node) : List (FileName × Node) → List (FileName × Node)
  | [] => [(name, node)]
  | (other, old) :: rest =>
    if other = name then (name, node) :: rest else (other, old) :: setEntry name node rest

/-- The tree with `leaf` at the end of the names; missing folders on the way are made. -/
def place (leaf : Node) : List FileName → Node → Except FileError Node
  | [], _ => .ok leaf
  | _ :: _, .file _ => .error .notFolder
  | name :: names, .folder entries => do
    let next ← place leaf names ((child? name entries).getD (.folder []))
    return .folder (setEntry name next entries)

/-- The tree without what the names lead to. -/
def remove : List FileName → Node → Node
  | [], node => node
  | _ :: _, .file content => .file content
  | [name], .folder entries => .folder (entries.filter (·.1 ≠ name))
  | name :: names, .folder entries =>
    .folder (entries.map fun (other, node) =>
      (other, if other = name then remove names node else node))

end Node

/-- A file tree and the folder in which relative paths start. -/
structure FileTree where
  /-- the folder at the root -/
  root : Node
  /-- the names that lead to the working folder -/
  workingFolder : List FileName

namespace FileTree

/-- Follows the steps of a path: a name has to exist unless it is the last one, `..` leads back. -/
def follow (tree : FileTree) :
    (reached : List FileName) → List Component → Except FileError (List FileName)
  | names, [] => .ok names
  | _, .root :: rest => follow tree [] rest
  | names, .current :: rest => follow tree names rest
  | names, .parent :: rest =>
    match tree.root.find names with
    | .error e => .error e
    | .ok (.file _) => .error .notFolder
    | .ok (.folder _) => follow tree names.dropLast rest
  | names, .normal name :: rest => follow tree (names ++ [name]) rest

/-- The names from the root that a path stands for. -/
def resolve (tree : FileTree) (path : Path) : Except FileError (List FileName) :=
  follow tree tree.workingFolder path.components

/-- What stands at a path. The empty path leads nowhere. -/
def node (tree : FileTree) (path : Path) : Except FileError Node := do
  if path.bytes = [] then .error .notFound
  else tree.root.find (← tree.resolve path)

/-- Whether a file stands at the path. A path that ends in a slash is one of a folder. -/
def isFile (tree : FileTree) (path : Path) : Bool :=
  match tree.node path with
  | .ok (.file _) => !path.endsInSlash
  | _ => false

/-- Whether a folder stands at the path. -/
def isFolder (tree : FileTree) (path : Path) : Bool :=
  match tree.node path with
  | .ok (.folder _) => true
  | _ => false

/-- Whether anything stands at the path. -/
def isPresent (tree : FileTree) (path : Path) : Bool :=
  match tree.node path with
  | .ok _ => true
  | .error _ => false

/-- The text of the file at a path. -/
def readText (tree : FileTree) (path : Path) : Except FileError String := do
  match ← tree.node path with
  | .folder _ => .error .isFolder
  | .file content =>
    -- a slash at the end asks for a folder
    if path.endsInSlash then .error .notFolder
    else
      match String.fromUTF8? content with
      | some text => .ok text
      | none => .error .notText

/-- The one spelling of the path of something that exists. -/
def canonical (tree : FileTree) (path : Path) : Except FileError Path := do
  let _ ← tree.node path
  return Path.ofNames (← tree.resolve path)

/-- The tree with a file written at a path; missing folders on the way are made. -/
def writeDeep (tree : FileTree) (path : Path) (leaf : Node) : Except FileError FileTree := do
  return { tree with root := ← Node.place leaf (← tree.resolve path) tree.root }

/-- The tree with a folder at a path; missing folders on the way are made. -/
def makeFolder (tree : FileTree) (path : Path) : Except FileError FileTree := do
  match tree.root.find (← tree.resolve path) with
  | .ok (.folder _) => .ok tree
  | .ok (.file _) => .error .fileExists
  | .error .notFound => tree.writeDeep path (.folder [])
  | .error e => .error e

/-- The tree with a text written into the file at a path, whose folder has to exist. -/
def writeText (tree : FileTree) (path : Path) (text : String) : Except FileError FileTree := do
  if path.bytes = [] then .error .notFound
  else
    let names ← tree.resolve path
    match ← tree.root.find names.dropLast with
    | .file _ => .error .notFolder
    | .folder _ =>
      match tree.root.find names with
      | .ok (.folder _) => .error .isFolder
      | _ =>
        if path.endsInSlash then .error .isFolder
        else tree.writeDeep path (.file text.toUTF8)

/-- The tree without what stands at a path. -/
def removeAt (tree : FileTree) (path : Path) : FileTree :=
  match tree.resolve path with
  | .ok names => { tree with root := Node.remove names tree.root }
  | .error _ => tree

end FileTree

end FeatureTransform
