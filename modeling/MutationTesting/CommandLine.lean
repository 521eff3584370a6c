import MutationTesting.CommandLine.Usage
import MutationTesting.Settings

/-!
# The command line

The commands with their options, and how arguments are read as one of them.
-/

namespace MutationTesting.CommandLine

/-- What the command line says about the tests. -/
structure OracleArgs where
  timeout : Option Duration
  testCommand : Option String
  scope : Option String
  workdir : Option String
  invalidMutants : Option InvalidMutantPolicy
  deriving DecidableEq, Repr

/-- What the command line says about a batch. -/
structure BatchArgs where
  catalog : String
  outputDir : String
  maxConcurrency : Option Nat
  skipLowLines : Option Bool
  minLine : Option Nat
  maxLine : Option Nat
  categories : List MutationKind
  minPriority : Option Priority
  /-- Whether each cycle runs in a process of its own. -/
  isolated : Bool
  oracle : OracleArgs
  deriving DecidableEq, Repr

/-- What a command line asks for. -/
inductive Subcommand where
  | generate (file : String) (function lines output : Option String)
  | functions (file : String)
  | apply (catalog id : String) (output : Option String) (verify : Bool)
  | test (catalog id : String) (output : Option String) (oracle : OracleArgs)
  | batch (args : BatchArgs)
  | report (results : String) (output : Option String)
  | restore (file : String)
  deriving DecidableEq, Repr

/-- A command line that was read. -/
structure Invocation where
  verbose : Bool
  command : Subcommand
  deriving DecidableEq, Repr

/-! ### Values -/

/-- Refuses an empty path. -/
def checkPath (value : String) : Option UsageError :=
  if value.isEmpty then some .invalidValue else none

/-- Refuses values that do not read. -/
def checkRead {α : Type} (error : UsageError) (read? : String → Option α) (value : String) :
    Option UsageError :=
  if (read? value).isSome then none else some error

def number? (value : String) : Option Nat := Text.number? value.toList

/-- The words for truth values. -/
def boolean? : String → Option Bool
  | "true" => some true
  | "false" => some false
  | _ => none

/-- Whether a mode of isolation uses processes. -/
def isolation? : String → Option Bool
  | "in-process" => some false
  | "subprocess" => some true
  | _ => none

def duration? (value : String) : Option Duration := (Duration.parse value).toOption

/-! ### Options -/

def helpOption : Argument := { name := "help", short := some 'h', action := .help }

def verboseOption : Argument := { name := "verbose", short := some 'v', action := .flag }

/-- The options of every subcommand. -/
def commonOptions : List Argument := [verboseOption, helpOption]

def fileArgument : Argument := { name := "file", check := checkPath, required := true }

def outputOption : Argument := { name := "output", short := some 'o', check := checkPath }

def catalogOption : Argument :=
  { name := "catalog", short := some 'c', check := checkPath, required := true }

def idOption : Argument := { name := "id", short := some 'i', required := true }

def oracleOptions : List Argument := [
  { name := "timeout", check := checkRead .valueValidation duration? },
  { name := "test-cmd" },
  { name := "scope" },
  { name := "workdir", check := checkPath },
  { name := "invalid-mutants", check := checkRead .invalidValue InvalidMutantPolicy.ofName? }]

def batchOptions : List Argument := [
  catalogOption,
  { name := "output-dir", check := checkPath },
  { name := "max-concurrency", check := checkRead .valueValidation number? },
  { name := "skip-low-lines", check := checkRead .invalidValue boolean? },
  { name := "min-line", check := checkRead .valueValidation number? },
  { name := "max-line", check := checkRead .valueValidation number? },
  { name := "category", action := .append
    check := checkRead .valueValidation MutationKind.ofName? },
  { name := "min-priority", check := checkRead .valueValidation Priority.ofName? },
  { name := "isolation", check := checkRead .invalidValue isolation? }]

/-- The subcommands, each with what it takes. -/
def subcommands : List (String × Form) := [
  ("generate", {
    options := commonOptions ++ [
      { name := "function", short := some 'f' }, { name := "lines", short := some 'l' },
      outputOption]
    positionals := [fileArgument] }),
  ("functions", { options := commonOptions, positionals := [fileArgument] }),
  ("apply", {
    options := commonOptions ++ [
      catalogOption, idOption, outputOption, { name := "no-verify", action := .flag }] }),
  ("test", {
    options := commonOptions ++ [catalogOption, idOption, outputOption] ++ oracleOptions }),
  ("batch", { options := commonOptions ++ batchOptions ++ oracleOptions }),
  ("report", {
    options := commonOptions ++ [
      { name := "results", short := some 'r', required := true }, outputOption] }),
  ("restore", { options := commonOptions, positionals := [fileArgument] })]

/-- What stands before a subcommand. -/
def topForm : Form where
  options := commonOptions ++ [{ name := "version", short := some 'V', action := .version }]
  subcommands := subcommands.map (·.1) ++ ["help"]

/-! ### Commands -/

def oracleArgs (r : Reading) : OracleArgs where
  timeout := (r.value? "timeout").bind duration?
  testCommand := r.value? "test-cmd"
  scope := r.value? "scope"
  workdir := r.value? "workdir"
  invalidMutants := (r.value? "invalid-mutants").bind InvalidMutantPolicy.ofName?

/-- The directory for the results of a batch when none is named. -/
def defaultOutputDir : String := "mutation-results"

def batchArgs (r : Reading) : BatchArgs where
  catalog := (r.value? "catalog").getD ""
  outputDir := (r.value? "output-dir").getD defaultOutputDir
  maxConcurrency := (r.value? "max-concurrency").bind number?
  skipLowLines := (r.value? "skip-low-lines").bind boolean?
  minLine := (r.value? "min-line").bind number?
  maxLine := (r.value? "max-line").bind number?
  categories := (r.values "category").filterMap MutationKind.ofName?
  minPriority := (r.value? "min-priority").bind Priority.ofName?
  isolated := ((r.value? "isolation").bind isolation?).getD false
  oracle := oracleArgs r

/-- The command that a subcommand with its arguments is. -/
def subcommandOf (name : String) (r : Reading) : Subcommand :=
  let text (argument : String) : String := (r.value? argument).getD ""
  match name with
  | "generate" =>
    .generate (text "file") (r.value? "function") (r.value? "lines") (r.value? "output")
  | "functions" => .functions (text "file")
  | "apply" => .apply (text "catalog") (text "id") (r.value? "output") (!r.has "no-verify")
  | "test" => .test (text "catalog") (text "id") (r.value? "output") (oracleArgs r)
  | "batch" => .batch (batchArgs r)
  | "report" => .report (text "results") (r.value? "output")
  | _ => .restore (text "file")

/-- What is said to a call for help on some words. -/
def helpOn : List String → UsageError
  | [] => .displayHelp
  | [word] => if topForm.subcommands.contains word then .displayHelp else .invalidSubcommand
  | _ => .invalidSubcommand

/-- Reads the arguments of the program. -/
def parse (args : List String) : Except UsageError Invocation := do
  let (top, rest) ← topForm.readFrom {} args
  match rest with
  | some ("help", words) => throw (helpOn words)
  | some (name, args) =>
    match subcommands.lookup name with
    | none => throw .invalidSubcommand
    | some s =>
      let r ← s.read args
      return ⟨top.has "verbose" || r.has "verbose", subcommandOf name r⟩
  | none =>
    if top.found.isEmpty then throw .displayHelpOnMissingArgumentOrSubcommand
    else throw .missingSubcommand

end MutationTesting.CommandLine
