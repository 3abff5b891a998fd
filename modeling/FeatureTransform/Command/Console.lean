import FeatureTransform.Folder.Tree
import FeatureTransform.Log

/-!
# What a command does

A command shows lines, remarks on what it does, and may write files. All this is kept as a value:
the state of a command is a console, and a failure leaves the console as it was at that point.
-/

namespace FeatureTransform.Command

/-- The numbers of a run. -/
structure Tally where
  /-- how many features came -/
  processed : Nat
  /-- how many features came back -/
  written : Nat
  /-- how many features gave nothing -/
  filtered : Nat
  /-- how many features failed -/
  failed : Nat
deriving DecidableEq, Repr

/-- The sentence about a run that took a time, in milliseconds. -/
def Tally.sentence (tally : Tally) (time : String) : String :=
  s!"Processed {tally.processed} features in {time}ms: {tally.written} written, "
    ++ s!"{tally.filtered} filtered, {tally.failed} failed"

/-- A remark on what a command does. -/
inductive Remark where
  /-- a note -/
  | note (note : Note)
  /-- a sentence for the user -/
  | sentence (text : String)
  /-- the numbers of a run -/
  | tally (tally : Tally)
deriving DecidableEq, Repr

/-- The remark as it is shown, if the user asks for so much. -/
def Remark.render (verbosity : Nat) (time : String) : Remark → Option String
  | .note n => if n.level = .debug ∧ verbosity = 0 then none else some n.render
  | .sentence text => some text
  | .tally t => some (t.sentence time)

/-- What a command has done so far. -/
structure Console where
  /-- the files as they are now -/
  tree : FileTree
  /-- the files written so far, each with its text, the last first -/
  written : List (Path × String)
  /-- the lines shown so far, the last first -/
  shown : List String
  /-- the remarks made so far, the last first -/
  remarks : List Remark

/-- A step of a command. -/
abbrev Step (α : Type) := ExceptT Failure (StateM Console) α

namespace Step

variable {α : Type}

/-- Shows a line. -/
def showLine (line : String) : Step Unit :=
  modify fun console => { console with shown := line :: console.shown }

/-- Shows lines. -/
def showAll (lines : List String) : Step Unit :=
  modify fun console => { console with shown := lines.reverse ++ console.shown }

/-- Makes a remark. -/
def remark (remark : Remark) : Step Unit :=
  modify fun console => { console with remarks := remark :: console.remarks }

/-- Takes a note. -/
def note (level : Level) (source text : String) : Step Unit :=
  remark (.note { level := level, source := source, text := text })

/-- Says something to the user. -/
def say (text : String) : Step Unit := remark (.sentence text)

/-- The files as they are now. -/
def tree : Step FileTree := do return (← get).tree

/-- A result with notes. -/
def ofNoted (x : Noted α) : Step α := do
  modify fun console =>
    { console with remarks := (x.notes.map Remark.note).reverse ++ console.remarks }
  return x.value

/-- A result with notes, or a failure. -/
def ofNotedResult (x : Noted (Except Failure α)) : Step α := do
  match ← ofNoted x with
  | .ok a => return a
  | .error failure => throw failure

/-- Writes a text into a file. -/
def write (path : Path) (text : String) (tree : FileTree) : Step Unit :=
  modify fun console =>
    { console with tree := tree, written := (path, text) :: console.written }

end Step

end FeatureTransform.Command
