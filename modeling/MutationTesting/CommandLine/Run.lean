import MutationTesting.Command
import MutationTesting.CommandLine
import MutationTesting.CommandLine.Failure
import MutationTesting.Filter

/-!
# Running commands

What each command does.  A command starts from the settings of the current directory, and the
arguments of the command line go before them.  A command that works on files which an
interrupted run left mutated restores them and does no more.
-/

namespace MutationTesting.CommandLine

open Command

/-! ### Settings -/

/-- The settings with what the command line says about the tests. -/
def OracleArgs.mergeInto (a : OracleArgs) (s : Settings) : Settings :=
  { s with
    timeout := a.timeout.getD s.timeout
    testCommand := a.testCommand.or s.testCommand
    scope := a.scope.getD s.scope
    invalidMutants := a.invalidMutants.getD s.invalidMutants }

/-- The settings with what the command line says about a batch. -/
def BatchArgs.mergeInto (a : BatchArgs) (s : Settings) : Settings :=
  { a.oracle.mergeInto s with
    maxConcurrency := a.maxConcurrency.getD s.maxConcurrency
    skipLowLines := a.skipLowLines.getD s.skipLowLines
    minLine := a.minLine.getD s.minLine
    maxLine := a.maxLine.getD s.maxLine
    categories := if a.categories.isEmpty then s.categories else a.categories
    minPriority := a.minPriority.or s.minPriority }

/-! ### Exit codes -/

/-- The exit code for input that is no good. -/
def badInputCode : Nat := 2

/-- The exit code for files that were not restored, or that first had to be recovered. -/
def environmentCode : Nat := 3

/-- The exit code of a batch that was stopped. -/
def interruptedCode : Nat := 130

/-! ### Steps of commands -/

/-- Puts a text into a file, in a directory that is made if it is not there, or prints it. -/
def writeOrPrint (output : Option String) (text : String) : Command Unit :=
  match output with
  | none => say fun _ => ⟨text, ""⟩
  | some path => do
    attempt (.ofFile ("create " ++ (Path.parent? path).getD "")) (Store.makeParent path)
    attempt (.ofFile s!"write {path}") (Procedure.write path text)

/-- The mutation of a catalog that has an id. -/
def loadMutation (catalog id : String) : Command Mutation := do
  let mutations ← attempt .ofStore (Store.loadCatalog catalog)
  attempt .ofStore (pure (Store.findMutation mutations id))

/-- Restores a file from its backup. -/
def restoreFrom (file backup : String) : Command Unit :=
  attempt (.ofFile s!"restore {file} from {backup}") (Backup.restore file backup)

/-- Restores a file that an interrupted run left mutated, and says whether it was one. -/
def recoverInterrupted (file : String) : Command Bool := do
  match ← Backup.interrupted? file with
  | none => return false
  | some backup =>
    restoreFrom file backup
    say (Console.error ·
      s!"Recovered {file} from a previously interrupted run. Re-run to continue.")
    return true

/-- Restores files up to the first that an interrupted run left mutated, if there is one. -/
def recoverFirst : List String → Command Bool
  | [] => return false
  | file :: files => do if ← recoverInterrupted file then return true else recoverFirst files

/-- The text of the test command: the one in the settings, or else that of the language of
the first mutation that has one. -/
def testCommandText (s : Settings) (mutations : List Mutation) : Option String :=
  s.testCommand.or
    ((mutations.findSome? fun m => Language.ofPath? m.file).map (·.defaultTestCommand))

/-- The test command for some mutations. -/
def chooseTestCommand (s : Settings) (mutations : List Mutation) (workdir : Option String) :
    Except Failure TestCommand :=
  match testCommandText s mutations with
  | none => .error (.badInput ["cannot pick a default test command; pass --test-cmd"])
  | some text =>
    if (Text.trim text.toList).isEmpty then .error (.badInput ["test command is empty"])
    else .ok (.parse text workdir)

/-- Runs a cycle whose tests are a command. -/
def cycleWith (parser : Parser) (command : TestCommand) (m : Mutation)
    (options : CycleOptions) : Procedure CycleRun :=
  (Cycle.run parser m options).withOracle command.oracle

/-- Runs a batch whose tests are a command. -/
def batchWith (parser : Parser) (command : TestCommand) (mutations : List Mutation)
    (options : BatchOptions) : Procedure BatchEnd :=
  (Batch.run parser mutations options).withOracle command.oracle

/-! ### Commands -/

/-- Reads a range of lines if one is given. -/
def lineRange (text : Option String) : Except Failure (Option LineRange) :=
  match text with
  | none => .ok none
  | some text =>
    match LineRange.parse? text with
    | some range => .ok (some range)
    | none => .error (.ofGeneration (.undiscovered (.invalidLineRange text)))

/-- Lists the mutations of a file, and stores them or prints them. -/
def generateCommand (parser : Parser) (file : String) (function lines output : Option String) :
    Command Nat := do
  let lines ← lineRange lines
  let mutations ← attempt .ofGeneration (generate parser file ⟨function, lines⟩)
  match output with
  | some path => attempt .ofStore (Store.saveCatalog path mutations)
  | none => say fun _ => .line (Record.ofCatalog mutations).pretty
  say (Console.catalogSummary · file mutations)
  return 0

/-- Lists the functions of a file. -/
def functionsCommand (parser : Parser) (file : String) : Command Nat := do
  match Language.ofPath? file with
  | none => throw (.badInput [s!"unsupported file type: {file}"])
  | some language =>
    let source ← attempt (.ofFile s!"read {file}") (Procedure.readText file)
    match listFunctions parser language source with
    | .error e => throw (.badInput [s!"failed to parse {file}", e.message])
    | .ok names =>
      say fun _ => .concat (names.map .line)
      return 0

/-- Makes one mutation of a catalog, and stores the text or prints it. -/
def applyCommand (parser : Parser) (catalog id : String) (output : Option String)
    (verify : Bool) : Command Nat := do
  let m ← loadMutation catalog id
  let source ← attempt (.ofFile s!"read {m.file}") (Procedure.readText m.file)
  let mutated ← attempt (.ofPlanting m.id) (pure (m.apply parser source))
  if verify then
    match m.verify parser mutated with
    | .ok () => pure ()
    | .error e =>
      say (Console.warning ·
        s!"mutated code does not parse ({e.message}); the compiler will likely reject it")
  writeOrPrint output mutated
  if output.isSome then say (Console.success · s!"{m.id}: {m.description}")
  return 0

/-- Runs one cycle on a mutation of a catalog. -/
def testCommand (parser : Parser) (settings : Settings) (catalog id : String)
    (output workdir : Option String) : Command Nat := do
  let m ← loadMutation catalog id
  if ← recoverInterrupted m.file then return environmentCode
  let command ← chooseTestCommand settings [m] workdir
  match (← cycleWith parser command m (.ofSettings settings)).ending with
  | .unrestored failure => throw (.ofRestore failure)
  | .brokenDown message => throw (.brokenDown message)
  | .finished result =>
    match output with
    | some path => attempt .ofStore (Store.saveResult path result)
    | none => say fun _ => .line (Record.ofResult result).pretty
    say (Console.result · result)
    return 0

/-- The files of some mutations, each once and in order. -/
def filesOf (mutations : List Mutation) : List String :=
  let files := (mutations.map (·.file)).mergeSort fun a b => (Path.compare a b).isLE
  files.foldr (fun file rest =>
    if rest.head?.any fun next => (Path.compare file next).isEq then file :: rest.tail
    else file :: rest) []

/-- Where the cycles of a batch run. -/
def isolationOf (a : BatchArgs) (settings : Settings) : Isolation :=
  if a.isolated then .subprocess .itself a.catalog settings.testCommand a.oracle.workdir
  else .inProcess

/-- Says how the results in a directory are put together. -/
def aggregateHint (outputDir : String) : String :=
  "\nAggregate with:\n"
    ++ s!"  mutscore report --results '{outputDir}/*.json' --output mutation-report.json"

/-- Runs a batch of mutations with a test command. -/
def runBatch (parser : Parser) (mutations : List Mutation) (command : TestCommand)
    (options : BatchOptions) : Command Nat := do
  match ← batchWith parser command mutations options with
  | .unprepared path cause => throw (.ofUnprepared path cause)
  | .unrestored failure => throw (.ofRestore failure)
  | .brokenDown message => throw (.brokenDown message)
  | .finished outcome =>
    say fun _ => Console.batchSummary outcome.tally outcome.duration
    say fun _ => .errorLine (aggregateHint options.outputDir)
    if outcome.interrupted then
      say (Console.warning · "batch interrupted; remaining mutations were not run")
      return interruptedCode
    else return 0

/-- Runs cycles on all mutations of a catalog that a filter accepts. -/
def batchCommand (parser : Parser) (settings : Settings) (a : BatchArgs) : Command Nat := do
  let mutations ← attempt .ofStore (Store.loadCatalog a.catalog)
  let selected := (Filter.ofSettings settings).select mutations
  let left := mutations.length - selected.length
  say fun _ => .line <| s!"Loaded {mutations.length} mutations, "
    ++ s!"testing {selected.length} mutations (filtered: {left})"
  if selected.isEmpty then
    say fun _ => .line "No mutations to test"
    return 0
  if ← recoverFirst (filesOf selected) then return environmentCode
  let command ← chooseTestCommand settings selected a.oracle.workdir
  runBatch parser selected command
    { BatchOptions.ofSettings settings a.outputDir with isolation := isolationOf a settings }

/-- Puts results that were stored together to a report. -/
def reportCommand (pattern : String) (output : Option String) : Command Nat := do
  let report := aggregate (← attempt .ofCollect (Store.collectResults pattern))
  match output with
  | some path =>
    attempt .ofStore (Store.saveReport path report)
    say (Console.success · s!"Results written to {path}")
  | none => say fun _ => .line (Record.ofReport report).pretty
  say (Console.reportSummary · report)
  return 0

/-- Restores a file from its backup. -/
def restoreCommand (file : String) : Command Nat := do
  match ← Backup.interrupted? file with
  | some backup =>
    restoreFrom file backup
    say (Console.success · s!"Restored {file} from {backup}")
  | none => say (Console.success · s!"{file}: no backup found, nothing to restore")
  return 0

/-- Runs the command that a line asks for, and gives its exit status. -/
def command (parser : Parser) (settings : Settings) : Subcommand → Command Nat
  | .generate file function lines output => generateCommand parser file function lines output
  | .functions file => functionsCommand parser file
  | .apply catalog id output verify => applyCommand parser catalog id output verify
  | .test catalog id output oracle =>
    testCommand parser (oracle.mergeInto settings) catalog id output oracle.workdir
  | .batch args => batchCommand parser (args.mergeInto settings) args
  | .report results output => reportCommand results output
  | .restore file => restoreCommand file

/-! ### The program -/

/-- How a run of the program ended. -/
inductive Ending where
  | exited (code : Nat)
  /-- The program did not come to its end. -/
  | brokenDown (message : String)
  deriving DecidableEq, Repr

/-- Runs a command with the settings of the current directory. -/
def start (parser : Parser) (i : Invocation) : Command Nat := do
  let settings ← attempt .ofSettings (Settings.load ".")
  command parser { settings with verbose := settings.verbose || i.verbose } i.command

/-- Runs a command and says why it failed if it did. -/
def run (parser : Parser) (i : Invocation) : Procedure Ending := do
  match ← (start parser i).run with
  | .ok code => return .exited code
  | .error (.brokenDown message) => return .brokenDown message
  | .error (.badInput messages) =>
    Procedure.print (Console.error · (Failure.badInput messages).message)
    return .exited badInputCode
  | .error (.unrestored messages) =>
    Procedure.print (Console.error · (Failure.unrestored messages).message)
    return .exited environmentCode

end MutationTesting.CommandLine
