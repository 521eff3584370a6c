import MutationTesting.Cycle
import MutationTesting.Locks
import MutationTesting.Store

/-!
# Batches

A batch runs a cycle for each of a list of mutations, one after the other, and stores every
result.  The cycles run in this process, or each in a process of its own that is told
everything by its arguments and stores the result itself.  A `Worker` takes the mutations in
their order, holds the lock of a file while it has a cycle, and puts each result where its
mutation is in the list.
-/

namespace MutationTesting

/-- Where the cycles of a batch run. -/
inductive Isolation where
  | inProcess
  /-- Each cycle is a run of a program that takes the mutation from a catalog file. -/
  | subprocess (program : Program) (catalog : String) (testCommand workdir : Option String)
  deriving DecidableEq, Repr

/-- How a batch is run. -/
structure BatchOptions where
  cycle : CycleOptions
  maxConcurrency : Nat
  progressEvery : Nat
  verbose : Bool
  outputDir : String
  isolation : Isolation
  deriving DecidableEq, Repr

def BatchOptions.ofSettings (s : Settings) (outputDir : String) : BatchOptions where
  cycle := .ofSettings s
  maxConcurrency := s.maxConcurrency
  progressEvery := s.progressEvery
  verbose := s.verbose
  outputDir := outputDir
  isolation := .inProcess

/-- What a batch gives. -/
structure BatchOutcome where
  /-- One result for each mutation that was run, in their order. -/
  results : List TestResult
  duration : Duration
  /-- Whether the batch was stopped before every mutation had run. -/
  interrupted : Bool
  deriving Repr

def BatchOutcome.tally (o : BatchOutcome) : Tally := .ofResults o.results

/-- How a batch ended. -/
inductive BatchEnd where
  | finished (outcome : BatchOutcome)
  /-- The directory for the results could not be made. -/
  | unprepared (path : String) (cause : FileError)
  | unrestored (failure : RestoreFailure)
  /-- A cycle broke down. -/
  | brokenDown (message : String)
  deriving Repr

def unpreparedMessage (path : String) (cause : FileError) : String :=
  s!"failed to prepare {path}: {cause.message}"

namespace Batch

/-- What is said about a number of workers that is not 1. -/
def concurrencyWarning (requested : Nat) : String :=
  s!"max_concurrency={requested} ignored: mutations modify files in place, running serially"

/-- The number of workers, whatever number was asked for. -/
def effectiveConcurrency (requested : Nat) : Procedure Nat := do
  if requested ≠ 1 then Procedure.print (Console.warning · (concurrencyWarning requested))
  return 1

/-- Whether progress is shown when `done` of `total` mutations have run. -/
def isShown (options : BatchOptions) (done total : Nat) : Bool :=
  options.verbose || done == total
    || (0 < options.progressEvery && done % options.progressEvery == 0)

/-! ### Cycles in processes of their own -/

/-- The time that a process gets beyond the limit of its tests. -/
def grace : Duration := .ofSeconds 10

/-- The arguments by which a process is told of its cycle. -/
def cycleArgs (m : Mutation) (options : BatchOptions) (catalog : String)
    (testCommand workdir : Option String) : List String :=
  ["test", "--catalog", catalog, "--id", m.id,
    "--output", Store.resultPath options.outputDir m.id,
    "--timeout", s!"{options.cycle.timeout.toMillis}ms",
    "--invalid-mutants", options.cycle.invalidMutants.name]
  ++ (if options.cycle.scope.isEmpty then [] else ["--scope", options.cycle.scope])
  ++ testCommand.elim [] (fun command => ["--test-cmd", command])
  ++ workdir.elim [] (fun directory => ["--workdir", directory])

/-- The name by which a message calls a program. -/
def programName : Program → String
  | .itself => "mutscore"
  | .named name => name

/-- Restores a file after its process was stopped. -/
def recover (m : Mutation) : Procedure Unit := do
  match ← Backup.interrupted? m.file with
  | none => pure ()
  | some backup =>
    let _ ← Backup.restore m.file backup
    pure ()

/-- What is to be said about the run of a process that leaves no result. -/
def processDetail (m : Mutation) (program : Program) :
    Except FileError Completion → Procedure String
  | .ok (.exited _ output) => pure output
  | .ok (.timedOut output) | .ok (.interrupted output) => do
    recover m
    return "cycle subprocess did not finish in time\n" ++ output
  | .error e => pure s!"failed to run {programName program}: {e.message}"

/-- The result of a cycle that ran in a process of its own. -/
def collectResult (m : Mutation) (options : BatchOptions) (detail : String) :
    Procedure TestResult := do
  match ← Store.loadResult (Store.resultPath options.outputDir m.id) with
  | .ok result => return result
  | .error _ => return { TestResult.blank m .error with
      testOutput := Text.excerpt detail options.cycle.maxOutputBytes }

/-- Runs a cycle in a process of its own and reads the result that it stored. -/
def runProcess (m : Mutation) (options : BatchOptions) (program : Program) (catalog : String)
    (testCommand workdir : Option String) : Procedure CycleEnd := do
  let limit := options.cycle.timeout + grace
  if Text.maxWord < limit.secs then return .brokenDown "overflow when adding durations"
  match ← Procedure.runProgram {
      program := program
      args := cycleArgs m options catalog testCommand workdir
      workdir := none
      limit := limit } with
  | .error message => return .brokenDown message
  | .ok completion =>
    let detail ← processDetail m program completion
    return .finished (← collectResult m options detail)

/-! ### Mutations one after the other -/

/-- Runs the cycle of one mutation. -/
def execute (parser : Parser) (m : Mutation) (options : BatchOptions) : Procedure CycleEnd := do
  match options.isolation with
  | .subprocess program catalog testCommand workdir =>
    runProcess m options program catalog testCommand workdir
  | .inProcess =>
    let run ← Cycle.run parser m options.cycle
    return run.ending

/-- Stores the result of a cycle, unless it ran in a process that has done so.  A result that
cannot be stored is no failure. -/
def store (m : Mutation) (options : BatchOptions) (result : TestResult) : Procedure Unit := do
  match options.isolation with
  | .subprocess _ _ _ _ => pure ()
  | .inProcess =>
    let _ ← Store.saveResult (Store.resultPath options.outputDir m.id) result
    pure ()

/-- Says how far a batch has come when `done` of `total` mutations have run, if it is to be
said. -/
def showProgress (options : BatchOptions) (done total : Nat) (m : Mutation)
    (result : TestResult) : Procedure Unit :=
  if isShown options done total then
    Procedure.print (Console.progress · done total m.id result.status)
  else pure ()

/-- What a worker keeps between the mutations that it runs. -/
structure Worker where
  /-- The position of the mutation that is next. -/
  next : Nat
  /-- How many mutations have come to results. -/
  completed : Nat
  /-- Whether no more mutations are to be run. -/
  stop : Bool
  /-- Why the batch is to end. -/
  fatal : Option RestoreFailure
  /-- The results at the positions of their mutations. -/
  slots : List (Option TestResult)
  locks : FileLocks
  /-- There is one worker, so that nothing is locked while it runs no cycle. -/
  unlocked : locks = .none

/-- The worker of a batch of so many mutations before the first of them. -/
def Worker.start (total : Nat) : Worker where
  next := 0
  completed := 0
  stop := false
  fatal := none
  slots := .replicate total none
  locks := .none
  unlocked := rfl

/-- How a worker comes out of one pass through its loop. -/
inductive Pass where
  | again (worker : Worker)
  | left (worker : Worker)
  /-- A cycle broke down and took the worker along. -/
  | brokenDown

/-- Runs the next mutation, if there is one. -/
def pass (parser : Parser) (options : BatchOptions) (mutations : List Mutation)
    (worker : Worker) : Procedure Pass := do
  if worker.stop then return .left worker
  if ← Procedure.isInterrupted then return .left worker
  let index := worker.next
  let worker := { worker with next := index + 1 }
  match mutations[index]? with
  | none => return .left worker
  | some m =>
    let key ← LockKey.find m.file
    let held := (worker.locks.lock? key).get (FileLocks.isSome_lock? worker.unlocked key)
    let ending ← execute parser m options
    let worker := { worker with
      locks := held.unlock key
      unlocked := FileLocks.unlock_get_lock? worker.unlocked key }
    match ending with
    | .unrestored failure => return .left { worker with stop := true, fatal := some failure }
    | .brokenDown _ => return .brokenDown
    | .finished result =>
      store m options result
      let done := worker.completed + 1
      showProgress options done mutations.length m result
      return .again { worker with
        completed := done
        slots := worker.slots.set index (some result) }

/-- Goes through the loop of a worker, at most so many times.  Gives the worker as it left the
loop, if it did not break down. -/
def work (parser : Parser) (options : BatchOptions) (mutations : List Mutation) :
    Nat → Worker → Procedure (Option Worker)
  | 0, worker => pure (some worker)
  | passes + 1, worker => do
    match ← pass parser options mutations worker with
    | .again worker => work parser options mutations passes worker
    | .left worker => return some worker
    | .brokenDown => return none

/-- Why a batch ended before its last mutation. -/
inductive Stop where
  | unrestored (failure : RestoreFailure)
  | brokenDown
  deriving DecidableEq, Repr

/-- What a worker leaves: the results that there are in the order of their mutations, or why
the batch is to end without them. -/
def conclude : Option Worker → Except Stop (List TestResult)
  | none => .error .brokenDown
  | some worker =>
    match worker.fatal with
    | some failure => .error (.unrestored failure)
    | none => .ok (worker.slots.filterMap id)

/-- Runs mutations up to the first that does not come to a result.  A worker goes through its
loop once for each of them and once more to find none left. -/
def runAll (parser : Parser) (options : BatchOptions) (mutations : List Mutation) :
    Procedure (Except Stop (List TestResult)) := do
  let worker ← work parser options mutations (mutations.length + 1) (.start mutations.length)
  return conclude worker

/-! ### Batches -/

/-- Runs a batch. -/
def run (parser : Parser) (mutations : List Mutation) (options : BatchOptions) :
    Procedure BatchEnd := do
  match ← Procedure.makeDirectories options.outputDir with
  | .error e => return .unprepared options.outputDir e
  | .ok () =>
    let _ ← effectiveConcurrency options.maxConcurrency
    let start ← Procedure.clock
    match ← runAll parser options mutations with
    | .error (.unrestored failure) => return .unrestored failure
    | .error .brokenDown => return .brokenDown "a scoped thread panicked"
    | .ok results =>
      let stop ← Procedure.clock
      return .finished {
        results := results
        duration := stop.since start
        interrupted := results.length < mutations.length }

end Batch

end MutationTesting
