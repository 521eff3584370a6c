import MutationTesting.Batch
import MutationTesting.Discovery
import MutationTesting.Settings

/-!
# Failing commands

A `Command` is a procedure that may end early in a `Failure`.  A failure says what went wrong
and then, one after the other, what that was caused by; messages that name their cause
themselves come before it all the same.
-/

namespace MutationTesting.CommandLine

/-- Why a command failed. -/
inductive Failure where
  /-- The input is no good; the messages lead from the failure to its cause. -/
  | badInput (messages : List String)
  /-- A file may still hold a mutant. -/
  | unrestored (messages : List String)
  /-- The command did not come to its end. -/
  | brokenDown (message : String)
  deriving DecidableEq, Repr

/-- A procedure that may end with a failure. -/
abbrev Command := ExceptT Failure Procedure

namespace Failure

def ofSettings (e : SettingsError) : Failure :=
  .badInput ["failed to load configuration", e.message, e.cause]

def ofGeneration (e : GenerationError) : Failure :=
  let cause := match e with
    | .unreadable _ cause => [cause.message]
    | .undiscovered (.syntaxError _ cause) => [cause.message]
    | .unsupportedLanguage _ | .undiscovered _ => []
  .badInput (e.message :: cause)

def ofStore (e : StoreError) : Failure :=
  let cause := match e with
    | .inaccessible _ cause => [cause.message]
    | .malformed _ => ["not a record of the expected form"]
    | .unknownMutation _ => []
  .badInput (e.message :: cause)

def ofCollect (e : CollectError) : Failure :=
  let cause := match e with
    | .badPattern cause => [cause.message]
    | .noMatches _ => []
  .badInput (e.message :: cause)

def ofPlanting (id : String) (e : PlantingError) : Failure :=
  let cause := match e with
    | .syntaxError cause => [cause.message]
    | _ => []
  .badInput (s!"failed to apply mutation {id}" :: e.message :: cause)

def ofRestore (f : RestoreFailure) : Failure := .unrestored [f.message, f.cause.message]

def ofUnprepared (path : String) (cause : FileError) : Failure :=
  .badInput [unpreparedMessage path cause, cause.message]

/-- A failure to do something with a file. -/
def ofFile (action : String) (e : FileError) : Failure :=
  .badInput [s!"failed to {action}", e.message]

/-- The messages of a failure in one line. -/
def message : Failure → String
  | badInput messages | unrestored messages => ": ".intercalate messages
  | brokenDown text => text

end Failure

namespace Command

/-- Does something that may fail. -/
def attempt {ε α : Type} (explain : ε → Failure) (p : Procedure (Except ε α)) : Command α :=
  ExceptT.mk do return (← p).mapError explain

/-- Prints a message. -/
def say (message : Message) : Command Unit := Procedure.print message

end Command

end MutationTesting.CommandLine
