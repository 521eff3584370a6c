import MutationTesting.Text.Search

/-!
# Reading arguments

A `Form` says which options, positional arguments and subcommands a command takes, and
`Form.read` reads arguments by it.  The value of an option is checked when the next
argument is known to be none of its own, so that an unknown argument is noticed before a bad
value that stands right in front of it.
-/

namespace MutationTesting.CommandLine

/-- Why arguments do not make a command that can be run. -/
inductive UsageError where
  | displayHelp
  | displayVersion
  | displayHelpOnMissingArgumentOrSubcommand
  | missingSubcommand
  | invalidSubcommand
  | unknownArgument
  | missingRequiredArgument
  | invalidValue
  | valueValidation
  | argumentConflict
  | tooManyValues
  deriving DecidableEq, Repr

namespace UsageError

def name : UsageError → String
  | .displayHelp => "DisplayHelp"
  | .displayVersion => "DisplayVersion"
  | .displayHelpOnMissingArgumentOrSubcommand => "DisplayHelpOnMissingArgumentOrSubcommand"
  | .missingSubcommand => "MissingSubcommand"
  | .invalidSubcommand => "InvalidSubcommand"
  | .unknownArgument => "UnknownArgument"
  | .missingRequiredArgument => "MissingRequiredArgument"
  | .invalidValue => "InvalidValue"
  | .valueValidation => "ValueValidation"
  | .argumentConflict => "ArgumentConflict"
  | .tooManyValues => "TooManyValues"

/-- To ask for help or for the version is no failure. -/
def exitCode : UsageError → Nat
  | .displayHelp | .displayVersion => 0
  | _ => 2

end UsageError

/-- What an argument does. -/
inductive Action where
  /-- It takes a value and may occur once. -/
  | set
  /-- It takes a value and may occur again. -/
  | append
  /-- It takes no value and may occur once. -/
  | flag
  | help
  | version
  deriving DecidableEq, Repr

/-- An argument that a command takes. -/
structure Argument where
  /-- The name of the argument, which of an option is also its long form. -/
  name : String
  short : Option Char := none
  action : Action := .set
  /-- Says what is wrong with a value, if anything. -/
  check : String → Option UsageError := fun _ => none
  required : Bool := false

def Argument.takesValue (a : Argument) : Bool := a.action == .set || a.action == .append

/-- The arguments that a command takes, and the commands below it. -/
structure Form where
  options : List Argument
  positionals : List Argument := []
  subcommands : List String := []

/-- What has been read. -/
structure Reading where
  /-- The arguments with their values, in order. -/
  found : List (String × String) := []
  /-- The last argument and its values, as long as it may get more. -/
  pending : Option (Argument × List String) := none
  /-- Whether the next argument may be the value of the last one. -/
  awaiting : Bool := false
  /-- How many positional arguments there were. -/
  position : Nat := 0
  /-- Whether only positional arguments follow. -/
  trailing : Bool := false

namespace Reading

def has (r : Reading) (name : String) : Bool := r.found.any (·.1 == name)

def values (r : Reading) (name : String) : List String :=
  (r.found.filter (·.1 == name)).map (·.2)

def value? (r : Reading) (name : String) : Option String := (r.values name).head?

/-- Takes an argument with its values in. -/
def take (r : Reading) (a : Argument) (values : List String) : Except UsageError Reading :=
  match a.action with
  | .help => .error .displayHelp
  | .version => .error .displayVersion
  | .flag =>
    if r.has a.name then .error .argumentConflict
    else .ok { r with found := r.found ++ [(a.name, "true")] }
  | action =>
    if values.isEmpty then .error .invalidValue
    else if action = .set && r.has a.name then .error .argumentConflict
    else match values.findSome? a.check with
      | some e => .error e
      | none => .ok { r with found := r.found ++ values.map fun value => (a.name, value) }

/-- Takes the last argument in, as it gets no more values. -/
def settle (r : Reading) : Except UsageError Reading :=
  match r.pending with
  | none => .ok r
  | some (a, values) => { r with pending := none }.take a values

/-- Takes an argument in that is complete. -/
def complete (r : Reading) (a : Argument) (values : List String) : Except UsageError Reading := do
  let r ← r.settle
  { r with awaiting := false }.take a values

/-- Notes an argument whose value may follow. -/
def await (r : Reading) (a : Argument) : Except UsageError Reading := do
  let r ← r.settle
  return { r with pending := some (a, []), awaiting := true }

end Reading

namespace Form

/-- The option with a long form. -/
def long? (s : Form) (name : String) : Option Argument := s.options.find? (·.name == name)

def short? (s : Form) (c : Char) : Option Argument := s.options.find? (·.short == some c)

/-- Reads an option in its long form, with the value after an equals sign if there is one. -/
def readLong (s : Form) (r : Reading) (text : List Char) : Except UsageError Reading :=
  let (name, value) := match Text.firstSplit? ['='] text with
    | some (name, value) => (name, some (String.ofList value))
    | none => (text, none)
  match s.long? (String.ofList name), value with
  | none, _ => .error .unknownArgument
  | some a, some value => if a.takesValue then r.complete a [value] else .error .tooManyValues
  | some a, none => if a.takesValue then r.await a else r.complete a []

/-- Reads options in their short forms; what follows one that takes a value is its value. -/
def readShort (s : Form) (r : Reading) : List Char → Except UsageError Reading
  | [] => .ok r
  | c :: cs =>
    match s.short? c with
    | none => .error .unknownArgument
    | some a =>
      if a.takesValue then
        match cs with
        | [] => r.await a
        | '=' :: value => r.complete a [String.ofList value]
        | value => r.complete a [String.ofList value]
      else do s.readShort (← r.complete a []) cs

/-- What an argument that is not expected is. -/
def unexpected (s : Form) (r : Reading) (arg : String) : UsageError :=
  if s.subcommands.isEmpty || (r.trailing && s.subcommands.contains arg) then .unknownArgument
  else .invalidSubcommand

/-- Reads a positional argument. -/
def readPositional (s : Form) (r : Reading) (arg : String) : Except UsageError Reading :=
  match s.positionals[r.position]? with
  | none => .error (s.unexpected r arg)
  | some a => do
    let r ← r.settle
    return { r with pending := some (a, [arg]), awaiting := false, position := r.position + 1 }

/-- Reads arguments up to a subcommand; gives that with the arguments after it. -/
def readFrom (s : Form) (r : Reading) :
    List String → Except UsageError (Reading × Option (String × List String))
  | [] => .ok (r, none)
  | arg :: args =>
    if r.trailing then do s.readFrom (← s.readPositional r arg) args
    else if !r.awaiting && s.subcommands.contains arg then .ok (r, some (arg, args))
    else match arg.toList with
      | ['-', '-'] => s.readFrom { r with trailing := true } args
      | '-' :: '-' :: text => do s.readFrom (← s.readLong r text) args
      | '-' :: c :: cs => do s.readFrom (← s.readShort r (c :: cs)) args
      | _ =>
        match r.awaiting, r.pending with
        | true, some (a, values) =>
          s.readFrom { r with pending := some (a, values ++ [arg]), awaiting := false } args
        | _, _ => do s.readFrom (← s.readPositional r arg) args

/-- Checks that all required arguments are there. -/
def finish (s : Form) (r : Reading) : Except UsageError Reading := do
  let r ← r.settle
  let missing := (s.options ++ s.positionals).any fun a => a.required && !r.has a.name
  if missing then throw .missingRequiredArgument
  return r

/-- Reads the arguments of a command without subcommands. -/
def read (s : Form) (args : List String) : Except UsageError Reading := do
  let (r, _) ← s.readFrom {} args
  s.finish r

end Form

end MutationTesting.CommandLine
