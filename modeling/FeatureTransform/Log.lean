/-!
# What is told

Besides its results, the program tells the user why something that was asked for could not be done,
what a script has to say while it runs, and, in notes taken on the way to a result, what it does.
A note has a level and names the part of the program that takes it. Warnings are always shown, the
others only on request.
-/

namespace FeatureTransform

/-! ## Failures -/

/-- Why something cannot be done: sentences, the outermost first. -/
structure Failure where
  /-- the sentences -/
  causes : List String
deriving DecidableEq, Repr

namespace Failure

/-- The failure of which one sentence says all. -/
def of (sentence : String) : Failure := { causes := [sentence] }

/-- The sentences as one, divided by colons. -/
def message (failure : Failure) : String := ": ".intercalate failure.causes

/-- The failure of something larger. -/
def within (sentence : String) (failure : Failure) : Failure :=
  { causes := sentence :: failure.causes }

end Failure

/-! ## Messages of scripts -/

/-- How much a message matters. -/
inductive FeedbackKind where
  /-- something to know -/
  | info
  /-- something to look at -/
  | warning
  /-- something that went wrong -/
  | error
deriving DecidableEq, Repr

/-- A message of a script. -/
structure Feedback where
  /-- how much it matters -/
  kind : FeedbackKind
  /-- what it says -/
  text : String
deriving DecidableEq, Repr

/-- The message with its kind in front, where it matters. -/
def Feedback.display (feedback : Feedback) : String :=
  match feedback.kind with
  | .info => feedback.text
  | .warning => "warning: " ++ feedback.text
  | .error => "error: " ++ feedback.text

/-! ## Notes -/

/-- How much a note matters. -/
inductive Level where
  /-- of interest to who looks for a fault -/
  | debug
  /-- of interest to the user -/
  | warn
deriving DecidableEq, Repr

/-- The name of the level, five characters wide. -/
def Level.label : Level → String
  | .debug => "DEBUG"
  | .warn => "WARN "

/-- A note. -/
structure Note where
  /-- how much it matters -/
  level : Level
  /-- who takes it -/
  source : String
  /-- what it says -/
  text : String
deriving DecidableEq, Repr

/-- The note as it is shown; lines after the first are indented. -/
def Note.render (note : Note) : String :=
  let body := note.text.toList.flatMap fun c => if c = '\n' then '\n' :: "    ".toList else [c]
  "[" ++ note.level.label ++ " " ++ note.source ++ "] " ++ String.ofList body

/-- A result and the notes taken on the way to it, in order. -/
structure Noted (α : Type) where
  /-- the result -/
  value : α
  /-- the notes -/
  notes : List Note

namespace Noted

variable {α β : Type}

/-- One step after another, with the notes of both. -/
protected def bind (x : Noted α) (f : α → Noted β) : Noted β :=
  let y := f x.value
  { value := y.value, notes := x.notes ++ y.notes }

instance : Monad Noted where
  pure a := { value := a, notes := [] }
  bind := Noted.bind

/-- A note and nothing else. -/
def note (level : Level) (source text : String) : Noted Unit :=
  { value := (), notes := [{ level := level, source := source, text := text }] }

/-- Several results, one after another, as one. -/
def join (xs : List (Noted (List α))) : Noted (List α) :=
  { value := xs.flatMap value, notes := xs.flatMap notes }

end Noted

end FeatureTransform
