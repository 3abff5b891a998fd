/-!
# Arguments

How a list of arguments gives options and operands. An option has a long name behind two dashes and
may have a letter behind one; letters may share a dash. A value follows its option as the next
argument, which then must not look like an option, or stands behind it after an equals sign or, for
a letter, at once. Two dashes alone end the options.
-/

namespace FeatureTransform.Command

/-! ## Options -/

/-- What an option takes, and how often it may be given. -/
inductive Form where
  /-- no value, at most once -/
  | flag
  /-- no value, any number of times -/
  | count
  /-- a text, at most once -/
  | text
  /-- a text, any number of times -/
  | texts
  /-- a path, at most once -/
  | path
  /-- a path, any number of times -/
  | paths
  /-- no value; the user is told how the program is used -/
  | help
  /-- no value; the user is told which version this is -/
  | version
deriving DecidableEq, Repr

namespace Form

/-- Whether an option of the form has a value. -/
def takesValue : Form → Bool
  | .text | .texts | .path | .paths => true
  | .flag | .count | .help | .version => false

/-- Whether an option of the form may be given again. -/
def isRepeatable : Form → Bool
  | .count | .texts | .paths => true
  | .flag | .text | .path | .help | .version => false

/-- Whether a value may be that of an option of the form: no path is empty. -/
def accepts : Form → String → Bool
  | .path, value | .paths, value => value ≠ ""
  | _, _ => true

end Form

/-- An option. -/
structure Switch where
  /-- its long name -/
  name : String
  /-- its letter, if it has one -/
  letter? : Option Char
  /-- what it takes -/
  form : Form
deriving DecidableEq, Repr

/-- Why a list of arguments asks for nothing that can be done. -/
inductive UsageError where
  /-- there is no such option, or no room for the operand -/
  | unexpected (argument : String)
  /-- no command is called so -/
  | unknownCommand (name : String)
  /-- an option without its value -/
  | missingValue (option : String)
  /-- a value that is none of the option -/
  | badValue (option value : String)
  /-- an option that may be given once is given again -/
  | repeated (option : String)
  /-- something that has to be given is not -/
  | missing (what : String)
deriving DecidableEq, Repr

/-- The sentence that describes the error. -/
def UsageError.message : UsageError → String
  | .unexpected argument => s!"unexpected argument '{argument}' found"
  | .unknownCommand name => s!"unrecognized subcommand '{name}'"
  | .missingValue option => s!"a value is required for '--{option}' but none was supplied"
  | .badValue option value => s!"invalid value '{value}' for '--{option}'"
  | .repeated option => s!"the argument '--{option}' cannot be used multiple times"
  | .missing what => s!"{what} is required"

/-- What ends the reading of arguments before their end. -/
inductive Halt where
  /-- an error -/
  | usage (e : UsageError)
  /-- the user asks how the program is used -/
  | help
  /-- the user asks which version this is -/
  | version
deriving DecidableEq, Repr

/-- What arguments give. -/
structure Given where
  /-- the options in order, each with its value; an option without one has the empty value -/
  options : List (String × String)
  /-- the operands in order -/
  operands : List String
deriving DecidableEq, Repr

namespace Given

/-- Nothing. -/
def empty : Given := { options := [], operands := [] }

/-- The values of an option. -/
def values (given : Given) (name : String) : List String :=
  (given.options.filter (·.1 = name)).map Prod.snd

/-- The value of an option. -/
def value? (given : Given) (name : String) : Option String := given.options.lookup name

/-- Whether an option is given. -/
def has (given : Given) (name : String) : Bool := (given.value? name).isSome

/-- One more option. -/
def addOption (given : Given) (switch : Switch) (value : String) : Except Halt Given :=
  match switch.form with
  | .help => .error .help
  | .version => .error .version
  | form =>
    if !form.accepts value then .error (.usage (.badValue switch.name value))
    else if !form.isRepeatable && given.has switch.name then
      .error (.usage (.repeated switch.name))
    else .ok { given with options := given.options ++ [(switch.name, value)] }

/-- One more operand. -/
def addOperand (given : Given) (operand : String) : Given :=
  { given with operands := given.operands ++ [operand] }

end Given

/-! ## Reading arguments -/

/-- What an argument is by its looks. -/
inductive Looks where
  /-- two dashes -/
  | endOfOptions
  /-- an option by its name, perhaps with a value -/
  | long (name : String) (value? : Option String)
  /-- options by their letters -/
  | short (letters : List Char)
  /-- something else -/
  | operand
deriving DecidableEq, Repr

/-- The name and the value in the text of an option. -/
def splitValue : List Char → List Char × Option (List Char)
  | [] => ([], none)
  | '=' :: value => ([], some value)
  | c :: rest =>
    let (name, value?) := splitValue rest
    (c :: name, value?)

/-- What an argument is by its looks. A dash alone is no option. -/
def Looks.of (argument : String) : Looks :=
  match argument.toList with
  | ['-', '-'] => .endOfOptions
  | '-' :: '-' :: rest =>
    let (name, value?) := splitValue rest
    .long (String.ofList name) (value?.map String.ofList)
  | '-' :: c :: rest => .short (c :: rest)
  | _ => .operand

/-- The value that stands behind a letter: an equals sign before it does not belong to it. -/
def attached : List Char → Option String
  | [] => none
  | '=' :: value => some (String.ofList value)
  | value => some (String.ofList value)

/-- Takes the options of letters that share a dash. The last one may be without its value yet. -/
def takeLetters (switches : List Switch) (argument : String) :
    List Char → Given → Except Halt (Given × Option Switch)
  | [], given => .ok (given, none)
  | c :: rest, given =>
    match switches.find? (·.letter? = some c) with
    | none => .error (.usage (.unexpected argument))
    | some switch =>
      if switch.form.takesValue then
        match attached rest with
        | none => .ok (given, some switch)
        | some value => do return (← given.addOption switch value, none)
      else do takeLetters switches argument rest (← given.addOption switch "")

/-- Takes an option by its name. It may be without its value yet. -/
def takeName (switches : List Switch) (argument name : String) (value? : Option String)
    (given : Given) : Except Halt (Given × Option Switch) :=
  match switches.find? (·.name = name), value? with
  | none, _ => .error (.usage (.unexpected argument))
  | some switch, none =>
    if switch.form.takesValue then .ok (given, some switch)
    else do return (← given.addOption switch "", none)
  | some switch, some value =>
    if switch.form.takesValue then do return (← given.addOption switch value, none)
    else .error (.usage (.unexpected value))

/-- What arguments give, with up to `room` operands. Where `stops` is set, the first operand ends
the options and stays in the rest. -/
def scan (switches : List Switch) (stops : Bool) (room : Nat) :
    Given → List String → Except Halt (Given × List String)
  | given, [] => .ok (given, [])
  | given, argument :: rest =>
    let settle (taken : Except Halt (Given × Option Switch)) : Except Halt (Given × List String) :=
      match taken with
      | .error halt => .error halt
      | .ok (given, none) => scan switches stops room given rest
      | .ok (given, some switch) =>
        match rest with
        | [] => .error (.usage (.missingValue switch.name))
        | value :: rest =>
          match Looks.of value with
          | .operand =>
            match given.addOption switch value with
            | .error halt => .error halt
            | .ok given => scan switches stops room given rest
          | _ => .error (.usage (.missingValue switch.name))
    match Looks.of argument with
    | .long name value? => settle (takeName switches argument name value? given)
    | .short letters => settle (takeLetters switches argument letters given)
    | .endOfOptions =>
      match rest.drop (room - given.operands.length) with
      | [] => .ok ({ given with operands := given.operands ++ rest }, [])
      | extra :: _ => .error (.usage (.unexpected extra))
    | .operand =>
      if stops then .ok (given, argument :: rest)
      else if given.operands.length < room then
        scan switches stops room (given.addOperand argument) rest
      else .error (.usage (.unexpected argument))

end FeatureTransform.Command
