import MutationTesting.Duration
import MutationTesting.Mutation
import MutationTesting.Procedure
import MutationTesting.Text.Blank
import MutationTesting.Toml.Reader

/-!
# Settings

The settings of a run, their defaults, and how the table `run` of a configuration file
changes them.  A file with other tables, or with settings that do not exist, is refused.
The settings of a directory are in a file of a fixed name in it; without it the defaults hold.
-/

namespace MutationTesting

/-- What is done with a mutant that does not parse. -/
inductive InvalidMutantPolicy where
  /-- The tests run all the same. -/
  | test
  /-- It counts as killed without a run of the tests. -/
  | assumeKilled
  deriving DecidableEq, Repr

namespace InvalidMutantPolicy

def all : List InvalidMutantPolicy := [.test, .assumeKilled]

def name : InvalidMutantPolicy → String
  | .test => "test"
  | .assumeKilled => "assume-killed"

def ofName? (text : String) : Option InvalidMutantPolicy := all.find? (·.name == text)

end InvalidMutantPolicy

/-- What a settings file may set, with the values that hold without one. -/
structure Settings where
  /-- Whether mutations above `lowLineThreshold` are left out. -/
  skipLowLines : Bool := true
  lowLineThreshold : Nat := 20
  /-- The first line that counts; 0 is no bound. -/
  minLine : Nat := 0
  /-- The last line that counts; 0 is no bound. -/
  maxLine : Nat := 0
  timeout : Duration := .ofSeconds 60
  maxConcurrency : Nat := 1
  verbose : Bool := false
  /-- The test command, if it is not the one of the language. -/
  testCommand : Option String := none
  /-- The last argument of the test command; none if empty. -/
  scope : String := ""
  invalidMutants : InvalidMutantPolicy := .test
  maxOutputBytes : Nat := 10000
  progressEvery : Nat := 10
  /-- The kinds that count; all if empty. -/
  categories : List MutationKind := []
  minPriority : Option Priority := none
  deriving DecidableEq, Repr

namespace Settings

/-! ### Values of settings -/

def boolean? : Toml → Option Bool
  | .boolean value => some value
  | _ => none

def natural? : Toml → Option Nat
  | .integer value => if 0 ≤ value then some value.toNat else none
  | _ => none

def text? : Toml → Option String
  | .string text => some text
  | _ => none

/-- A name, or a table whose only key is that name and has nothing in it. -/
def name? : Toml → Option String
  | .string text => some text
  | .table [(name, .table [])] => some name
  | .table [(name, .array [])] => some name
  | _ => none

/-- A number of seconds, or a written duration. -/
def duration? : Toml → Option Duration
  | .integer value => if 0 ≤ value then some (.ofSeconds value.toNat) else none
  | .string text => (Duration.parse text).toOption
  | _ => none

def kinds? : Toml → Option (List MutationKind)
  | .array items => items.mapM fun item => (name? item).bind MutationKind.ofName?
  | _ => none

/-- The settings in their fixed order, each with how it is set to a value. -/
def fields : List (String × (Settings → Toml → Option Settings)) := [
  ("skip_low_lines", fun s v => (boolean? v).map fun x => { s with skipLowLines := x }),
  ("low_line_threshold", fun s v => (natural? v).map fun x => { s with lowLineThreshold := x }),
  ("min_line", fun s v => (natural? v).map fun x => { s with minLine := x }),
  ("max_line", fun s v => (natural? v).map fun x => { s with maxLine := x }),
  ("timeout", fun s v => (duration? v).map fun x => { s with timeout := x }),
  ("max_concurrency", fun s v => (natural? v).map fun x => { s with maxConcurrency := x }),
  ("verbose", fun s v => (boolean? v).map fun x => { s with verbose := x }),
  ("test_cmd", fun s v => (text? v).map fun x => { s with testCommand := some x }),
  ("scope", fun s v => (text? v).map fun x => { s with scope := x }),
  ("invalid_mutants", fun s v =>
    ((name? v).bind InvalidMutantPolicy.ofName?).map fun x => { s with invalidMutants := x }),
  ("max_output_bytes", fun s v => (natural? v).map fun x => { s with maxOutputBytes := x }),
  ("progress_every", fun s v => (natural? v).map fun x => { s with progressEvery := x }),
  ("categories", fun s v => (kinds? v).map fun x => { s with categories := x }),
  ("min_priority", fun s v =>
    ((name? v).bind Priority.ofName?).map fun x => { s with minPriority := some x })]

/-- Sets the settings of a table, or of an array that has them in their fixed order. -/
def ofToml? : Toml → Option Settings
  | .table pairs => pairs.foldlM (fun s (name, value) => do
      let (_, set) ← fields.find? (·.1 == name)
      set s value) {}
  | .array items => (fields.zip items).foldlM (fun s ((_, set), value) => set s value) {}
  | _ => none

/-- Reads a configuration file; a blank one changes nothing. -/
def parse? (text : String) : Option Settings :=
  if (Text.trim text.toList).isEmpty then some {}
  else do
    let document ← Toml.parse? text
    document.foldlM (fun _ (name, value) => if name = "run" then ofToml? value else none) {}

end Settings

/-! ### Loading -/

/-- Why the settings of a directory cannot be had. -/
inductive SettingsError where
  | unreadable (path : String) (cause : FileError)
  | malformed (path : String)
  deriving DecidableEq, Repr

namespace SettingsError

/-- What is wrong, apart from the file. -/
def cause : SettingsError → String
  | .unreadable _ cause => cause.message
  | .malformed _ => "not a valid configuration"

def message : SettingsError → String
  | .unreadable path cause => s!"failed to read {path}: {cause.message}"
  | .malformed path => s!"invalid config {path}: not a valid configuration"

end SettingsError

namespace Settings

/-- The name of the settings file of a directory. -/
def fileName : String := ".mutscore.toml"

/-- Loads the settings of a directory. -/
def load (directory : String) : Procedure (Except SettingsError Settings) := do
  let path := Path.join directory fileName
  if ← Procedure.isPresent path then
    match ← Procedure.readText path with
    | .error e => return .error (.unreadable path e)
    | .ok text =>
      match parse? text with
      | some settings => return .ok settings
      | none => return .error (.malformed path)
  else return .ok {}

end Settings

end MutationTesting
