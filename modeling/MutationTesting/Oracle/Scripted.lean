import MutationTesting.Disk
import MutationTesting.Duration
import MutationTesting.Oracle
import MutationTesting.Text.Search

/-!
# Scripted oracles

A scripted oracle gives prepared answers in turn, without running any tests.  On the way it
can change the disk, and it takes note of what it was asked and of what a watched file held.
-/

namespace MutationTesting

/-- How a scripted oracle comes to an outcome. -/
inductive ScriptedOutcome where
  | passed
  | failed
  | timedOut
  | interrupted
  | spawnFailed
  /-- The tests fail if the watched file holds a text; without such a file it is empty. -/
  | search (needle : String)
  deriving DecidableEq, Repr

/-- One prepared answer.  Its actions come first, in the order of its fields. -/
structure ScriptedAnswer where
  removeFile : Option String := none
  removeDirectory : Option String := none
  /-- A path to write to, and the text to write. -/
  write : Option (String × String) := none
  /-- The message to break down with. -/
  breakDown : Option String := none
  outcome : ScriptedOutcome := .passed
  output : String := ""
  deriving DecidableEq, Repr

/-- What a scripted oracle noted of one question. -/
structure ScriptedCall where
  scope : String
  limit : Duration
  /-- What the watched file held, if there is one and it could be read. -/
  seen : Option String
  deriving DecidableEq, Repr

/-- An oracle whose answers are given beforehand. -/
structure ScriptedOracle where
  /-- The answers, which start anew after the last one. -/
  answers : List ScriptedAnswer
  /-- The file to look into. -/
  watch : Option String
  /-- The questions so far. -/
  calls : List ScriptedCall
  deriving DecidableEq, Repr

namespace ScriptedAnswer

/-- Does the actions of an answer, as far as that can be done. -/
def act (a : ScriptedAnswer) (d : Disk) : Disk :=
  let attempt (change : Except FileError Disk) (d : Disk) : Disk := change.toOption.getD d
  let d := a.removeFile.elim d fun path => attempt (d.remove path) d
  let d := a.removeDirectory.elim d fun path => attempt (d.removeTree path) d
  a.write.elim d fun (path, text) => attempt (d.write path text) d

/-- The answer to a question, given what the watched file holds after the actions. -/
def reply (a : ScriptedAnswer) (watched : Option String) : Except String Outcome :=
  match a.breakDown with
  | some message => .error message
  | none => .ok <| match a.outcome with
    | .passed => .passed a.output
    | .failed => .failed a.output
    | .timedOut => .timedOut a.output
    | .interrupted => .interrupted a.output
    | .spawnFailed => .spawnFailed a.output
    | .search needle =>
      if Text.occursIn needle.toList (watched.getD "").toList then .failed a.output
      else .passed a.output

end ScriptedAnswer

namespace ScriptedOracle

/-- The answer whose turn it is; without any, the tests pass. -/
def next (o : ScriptedOracle) : ScriptedAnswer :=
  (o.answers[o.calls.length % o.answers.length]?).getD {}

/-- Answers a question. -/
def consult (o : ScriptedOracle) (scope : String) (limit : Duration) (d : Disk) :
    Except String Outcome × ScriptedOracle × Disk :=
  let watched (d : Disk) : Option String := o.watch.bind fun path => (d.readText path).toOption
  let d' := o.next.act d
  (o.next.reply (watched d'), { o with calls := o.calls ++ [⟨scope, limit, watched d⟩] }, d')

end ScriptedOracle

end MutationTesting
