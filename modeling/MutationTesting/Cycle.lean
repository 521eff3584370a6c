import MutationTesting.Backup
import MutationTesting.Diff
import MutationTesting.Planting
import MutationTesting.Settings
import MutationTesting.Text.Excerpt

/-!
# Cycles

A cycle makes one mutation in its file, asks the test oracle, and restores the file.  What
goes wrong on the way becomes a result with status `error`; only a file that could not be
restored ends a cycle without a result.
-/

namespace MutationTesting

/-- How a cycle is run. -/
structure CycleOptions where
  scope : String
  timeout : Duration
  /-- Whether the mutant is parsed before it is tested. -/
  verify : Bool
  invalidMutants : InvalidMutantPolicy
  maxOutputBytes : Nat
  deriving DecidableEq, Repr

def CycleOptions.ofSettings (s : Settings) : CycleOptions where
  scope := s.scope
  timeout := s.timeout
  verify := true
  invalidMutants := s.invalidMutants
  maxOutputBytes := s.maxOutputBytes

/-- How far a cycle has come. -/
inductive CycleState where
  | start
  | backedUp
  | mutated
  | tested
  | restored
  | resultEmitted
  deriving DecidableEq, Repr

namespace CycleState

def rank : CycleState → Nat
  | .start => 0
  | .backedUp => 1
  | .mutated => 2
  | .tested => 3
  | .restored => 4
  | .resultEmitted => 5

def name : CycleState → String
  | .start => "start"
  | .backedUp => "backed-up"
  | .mutated => "mutated"
  | .tested => "tested"
  | .restored => "restored"
  | .resultEmitted => "result-emitted"

end CycleState

/-- A file could not be restored and may hold a mutant. -/
structure RestoreFailure where
  file : String
  backup : String
  cause : FileError
  deriving DecidableEq, Repr

def RestoreFailure.message (f : RestoreFailure) : String :=
  s!"CRITICAL: failed to restore {f.file}: {f.cause.message}. "
    ++ "The file may still contain a mutant; "
    ++ s!"original content is kept in {f.backup}"

/-- How a cycle ended. -/
inductive CycleEnd where
  | finished (result : TestResult)
  | unrestored (failure : RestoreFailure)
  /-- The oracle broke down. -/
  | brokenDown (message : String)
  deriving Repr

/-- The end of a cycle, and the states it went through. -/
structure CycleRun where
  ending : CycleEnd
  states : List CycleState
  deriving Repr

namespace Cycle

/-- What a cycle found out about a mutant. -/
structure Finding where
  status : Status
  output : String
  diff : String
  deriving DecidableEq, Repr

def Finding.error (output : String) : Finding := ⟨.error, output, ""⟩

/-- A program that fails has found the mutation. -/
def statusOf : Outcome → Status
  | .passed _ => .survived
  | .failed _ => .killed
  | .timedOut _ => .timeout
  | .interrupted _ | .spawnFailed _ => .error

/-- The output of an outcome, which says first that the tests were interrupted. -/
def outputOf : Outcome → String
  | .interrupted output => "interrupted\n" ++ output
  | outcome => outcome.output

/-- Why a mutant is not tested, if it is not. -/
def verdictWithoutTests? (parser : Parser) (m : Mutation) (mutated : String)
    (options : CycleOptions) : Option String :=
  if options.verify && options.invalidMutants = .assumeKilled then
    match m.verify parser mutated with
    | .ok () => none
    | .error e => some s!"Mutant does not parse ({e.message}); oracle skipped"
  else none

/-- Makes the mutation and asks the oracle, if there is need to.  Gives the message of an
oracle that broke down, or else the finding, together with the states gone through. -/
def mutateAndTest (parser : Parser) (m : Mutation) (g : Guard) (options : CycleOptions) :
    Procedure (Except String Finding × List CycleState) := do
  match m.apply parser g.saved with
  | .error e => return (.ok (.error ("Failed to apply mutation: " ++ e.message)), [])
  | .ok mutated =>
    let diff := lineDiff g.saved mutated
    match ← Procedure.write g.file mutated with
    | .error e => return (.ok ⟨.error, "Failed to write mutated code: " ++ e.message, diff⟩, [])
    | .ok () =>
      match verdictWithoutTests? parser m mutated options with
      | some reason => return (.ok ⟨.killed, reason, diff⟩, [.mutated])
      | none =>
        match ← Procedure.consult options.scope options.timeout with
        | .error message => return (.error message, [.mutated])
        | .ok outcome =>
          return (.ok ⟨statusOf outcome, outputOf outcome, diff⟩, [.mutated, .tested])

/-- The milliseconds from one moment to another. -/
def elapsedMs (start stop : Duration) : Float := Console.seconds (stop.since start) * 1000

/-- The result of a cycle that found something out. -/
def report (m : Mutation) (finding : Finding) (start : Duration) (options : CycleOptions) :
    Procedure TestResult := do
  let stop ← Procedure.clock
  return { TestResult.blank m finding.status with
    durationMs := elapsedMs start stop
    testOutput := Text.excerpt finding.output options.maxOutputBytes
    diff := finding.diff }

/-- Runs one cycle. -/
def run (parser : Parser) (m : Mutation) (options : CycleOptions) : Procedure CycleRun := do
  let start ← Procedure.clock
  match ← Guard.acquire m.file with
  | .error e =>
    let result ← report m (.error s!"Failed to back up {m.file}: {e.message}") start options
    return ⟨.finished result, [.start, .restored, .resultEmitted]⟩
  | .ok g =>
    let (found, states) ← mutateAndTest parser m g options
    let states := [.start, .backedUp] ++ states
    match found with
    | .error message =>
      g.drop
      return ⟨.brokenDown message, states⟩
    | .ok finding =>
      let (restored, g) ← g.restore
      match restored with
      | .error e =>
        g.drop
        return ⟨.unrestored ⟨m.file, g.backup, e⟩, states⟩
      | .ok () =>
        let result ← report m finding start options
        return ⟨.finished result, states ++ [.restored, .resultEmitted]⟩

end Cycle

end MutationTesting
