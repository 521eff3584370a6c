import MutationTesting.Procedure
import MutationTesting.Text.Blank

/-!
# Test commands

A test command is words with blanks between them: a program and its arguments.  No shell
reads it.  As a test oracle it is run with the scope as its last argument, and its exit
status is the outcome.
-/

namespace MutationTesting

/-- A program with its arguments that tests a scope. -/
structure TestCommand where
  program : String
  args : List String
  /-- The directory that it runs in, if it is not the current one. -/
  workdir : Option String
  deriving DecidableEq, Repr

namespace TestCommand

/-- Reads a command; one without words has an empty program. -/
def parse (text : String) (workdir : Option String) : TestCommand :=
  match (Text.words text.toList).map String.ofList with
  | [] => ⟨"", [], workdir⟩
  | program :: args => ⟨program, args, workdir⟩

/-- The run of a command for a scope. -/
def launch (c : TestCommand) (scope : String) (limit : Duration) : Launch where
  program := .named c.program
  args := c.args ++ if scope.isEmpty then [] else [scope]
  workdir := c.workdir
  limit := limit

/-- The outcome that the end of a test command stands for. -/
def outcomeOf (c : TestCommand) : Except FileError Completion → Outcome
  | .error e => .spawnFailed s!"failed to run {c.program}: {e.message}"
  | .ok (.exited true output) => .passed output
  | .ok (.exited false output) => .failed output
  | .ok (.timedOut output) => .timedOut output
  | .ok (.interrupted output) => .interrupted output

/-- Runs the tests for a scope. -/
def oracle (c : TestCommand) (scope : String) (limit : Duration) :
    Procedure (Except String Outcome) := do
  return (← Procedure.runProgram (c.launch scope limit)).map c.outcomeOf

end TestCommand

end MutationTesting
