/-!
# Test oracles

A test oracle runs the tests against the files as they are.  An `Outcome` is what it says;
a `Completion` is how one run of a program under a time limit ended.
-/

namespace MutationTesting

/-- What an oracle says of the files as they are. -/
inductive Outcome where
  | passed (output : String)
  | failed (output : String)
  | timedOut (output : String)
  | interrupted (output : String)
  /-- The tests could not be started at all. -/
  | spawnFailed (message : String)
  deriving DecidableEq, Repr

/-- What the tests printed, or why they did not start. -/
def Outcome.output : Outcome → String
  | passed text | failed text | timedOut text | interrupted text | spawnFailed text => text

/-- How a run of a program under a time limit ended. -/
inductive Completion where
  | exited (success : Bool) (output : String)
  | timedOut (output : String)
  | interrupted (output : String)
  deriving DecidableEq, Repr

/-- What a program printed on both streams, with a newline between two that are not empty. -/
def combineStreams (out err : String) : String :=
  if err.isEmpty then out else if out.isEmpty then err else out ++ "\n" ++ err

end MutationTesting
