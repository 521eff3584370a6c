import MutationTesting.Oracle
import MutationTesting.Shell.Run

/-!
# Runs of programs

`execute` runs a program on a disk under a time limit, and gives how the run looks from outside:
whether it came to its end, and what was printed by then.
-/

namespace MutationTesting.Shell

/-! ### Starting -/

/-- The most bytes that an argument of a program has. -/
def maxArgument : Nat := 131071

/-- Checks that texts can be given to the operating system at all. -/
def checkTexts (texts : List String) : Except FileError Unit :=
  if texts.any (·.toList.contains '\x00') then .error .zeroInData else .ok ()

/-- Checks that texts can be arguments of a program. -/
def checkArguments (texts : List String) : Except FileError Unit :=
  if texts.any (maxArgument < ·.utf8ByteSize) then .error .tooManyArguments else .ok ()

/-- Checks that a program can be started. -/
def checkProgram (p : Process) (name : String) : Except FileError Unit := do
  if name = "." || name = ".." then throw .permissionDenied
  if !name.toList.contains '/' && Disk.maxNameLength < name.length then throw .nameTooLong
  match ← programOf p name with
  | .system _ => return
  | .file path =>
    match Process.readFile p.disk path with
    | .error e => throw e
    | .ok text =>
      match interpreter? text with
      | none => throw .notExecutable
      | some words => do
        let _ ← programOf p (words.headD "")

/-! ### Runs under a time limit -/

/-- The variables that programs get. -/
def initialBindings (d : Disk) : List (String × Binding) := [
  ("HOME", "/root"), ("PATH", "/usr/local/sbin:/usr/local/bin:/usr/sbin:/usr/bin:/sbin:/bin"),
  ("PWD", Text.encode ("/" ++ "/".intercalate d.home))].map fun (name, value) =>
    (name, { value := some value, exported := true })

/-- The process that a run starts as. -/
def initialProcess (d : Disk) (horizon : Nat) : Process where
  disk := if (d.lookup? ["tmp"]).isSome then d else d.put ["tmp"] .directory
  bindings := initialBindings d
  name := "sh"
  id := Process.firstId
  handles := [(0, .input 0), (1, .output (.stream 1)), (2, .output (.stream 2))]
  horizon := horizon
  flows := [(0, { chunks := [] })]

/-- The nanoseconds for which output is awaited after a program has ended. -/
def drainTime : Nat := 200000000

/-- What was printed on a stream up to some time. -/
def printedBy (events : List Event) (stream time : Nat) : String :=
  let shown := (events.reverse.filter fun e => e.stream = stream && e.time ≤ time).mergeSort
    fun a b => a.time ≤ b.time
  Text.decode (String.join (shown.map (·.text)))

/-- What a run has come to. -/
structure Execution where
  completion : Completion
  disk : Disk
  /-- Whether it has ended what had started it by a signal. -/
  orphaned : Bool

/-- Whether a run that was cut short has sent a signal to what had started it that ends it. -/
def Halt.orphans : Halt → Bool
  | .killed signal (some shell) => shell == Process.firstId && !Signal.isTaken signal
  | _ => false

/-- Runs a program on a disk for so many nanoseconds at most.  Output of commands in the
background counts up to the time limit, or a little beyond the end of the program. -/
def execute (d : Disk) (program : String) (args : List String) (limit : Nat) :
    Except FileError Execution := do
  checkArguments (program :: args)
  let start := initialProcess d (limit + drainTime)
  let words := (program :: args).map Text.encode
  checkProgram start (Text.encode program)
  let (ending, p) := (launch (run maxNesting) maxLaunchDepth words).run.run start
  let output (time : Nat) : String :=
    combineStreams (printedBy p.events 1 time) (printedBy p.events 2 time)
  let completion : Completion :=
    if ending matches .error .late || limit < p.now then .timedOut (output limit)
    else
      let success := match ending with
        | .ok () => p.status == 0
        | .error (.exit status) => status == 0
        | .error _ => false
      .exited success (output (max limit (p.now + drainTime)))
  return {
    completion := completion
    disk := { p.disk with home := d.home }
    orphaned := match ending with
      | .ok () => false
      | .error halt => halt.orphans }

end MutationTesting.Shell
