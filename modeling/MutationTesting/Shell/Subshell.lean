import MutationTesting.Shell.Process
import MutationTesting.Shell.Reading.Command

/-!
# Shells inside of a shell

`runText` runs the commands of a text.  `isolated` runs commands in a copy of the shell, of
which `captured` takes the output, `pipeline` has several at a time that read from one
another, and `background` has one that goes on while the shell does.
-/

namespace MutationTesting.Shell

variable (run : Runner)

/-- Runs commands one after the other. -/
def runAll (tested : Bool) : List Command → Eval Unit
  | [] => setStatus 0
  | [command] => run tested command
  | command :: commands => do
    run tested command
    runAll tested commands

/-- Runs what is left of a script line by line; gives whether there was something to run.  The
fuel bounds the number of lines. -/
def runLines (tested : Bool) : Nat → Bool → Source → Eval Bool
  | 0, ran, _ => return ran
  | fuel + 1, ran, source => do
    match source.next? with
    | .error flaw =>
      modify fun p => { p with line := flaw.line }
      complain flaw.reason
      throw (.exit 2)
    | .ok (none, _) => return ran
    | .ok (some commands, rest) =>
      if (← get).hasOption 'v' then
        printError (String.ofList (source.rest.take (source.rest.length - rest.rest.length)))
      if commands.isEmpty || (← get).hasOption 'n' then runLines tested fuel ran rest
      else
        runAll run tested commands
        runLines tested fuel true rest

/-- Runs the commands of a text; gives whether there were any. -/
def runText (tested : Bool) (text : String) : Eval Bool :=
  runLines run tested (text.length + 1) false (.ofText text.toList)

/-- Does what is to be done on a signal.  The status stays as it was. -/
def runTrap (action : String) : Eval Unit := do
  let before ← get
  set { before with saved := some before.status }
  let _ ← runText run false action
  modify fun p => { p with status := before.status, line := before.line, saved := before.saved }

/-- Does what is to be done on the signals that have come.  The fuel bounds their number. -/
def runTraps : Nat → Eval Unit
  | 0 => pure ()
  | fuel + 1 => do
    let p ← get
    if !p.nested then
      match p.pending.find? (·.1 == p.id) with
      | none => pure ()
      | some (shell, signal) =>
        set { p with pending := p.pending.erase (shell, signal) }
        match p.traps.lookup signal with
        | some action => runTrap run action
        | none => pure ()
        runTraps fuel

/-- Does what is to be done at the end of a shell. -/
def runExitTrap : Eval Unit := do
  let p ← get
  match p.traps.lookup 0 with
  | none => pure ()
  | some action =>
    set { p with traps := p.traps.filter (·.1 != 0) }
    tryCatch (runTrap run action) fun
      | .exit status | .flaw status => setStatus status
      | .leave _ | .next _ | .back _ => pure ()
      | halt => throw halt

/-- Runs a shell to its end, whatever ends it. -/
def toEnd (action : Eval Unit) : Eval Unit := do
  tryCatch action fun
    | .exit status | .flaw status | .back status => setStatus status
    | .leave _ | .next _ => pure ()
    | halt => throw halt
  runExitTrap run

/-- Says what ended a process, if anything is to be said. -/
def printObituary (signal : Nat) : Eval Unit := do
  let text := Signal.obituaryOf signal
  if !text.isEmpty then printError (text ++ "\n")

/-- Runs something in a copy of the shell.  `quiet` says that nothing is said if a signal ends
it. -/
def isolated (quiet : Bool) (action : Eval Unit) : Eval Unit := do
  let own ← get
  set { own with
    traps := own.traps.filter (·.2.isEmpty), jobs := [], loops := 0, nested := true }
  let ended ← tryCatch (do toEnd run action; return none) fun
    | .killed signal none => return some signal
    | halt => do
      modify (·.leave own)
      throw halt
  modify (·.leave own)
  match ended with
  | none => pure ()
  | some signal =>
    if !quiet then printObituary signal
    setStatus (128 + signal)

/-! ### Pipes -/

/-- Makes a pipe, and gives its number. -/
def openPipe : Eval Nat := do
  let (n, p) := (← get).nextFresh
  set { p with pipes := (n, {}) :: p.pipes }
  return n

/-- What went into a pipe that nothing goes into any more after a moment, if there is one. -/
def closePipe (n : Nat) (ended : Option Nat) : Eval Flow := do
  let p ← get
  let pipe := (p.pipes.lookup n).getD {}
  set { p with pipes := p.pipes.filter (·.1 != n) }
  let closed := match ended, pipe.held with
    | some a, some b => some (max a b)
    | _, _ => none
  return { chunks := pipe.chunks.reverse.mergeSort fun a b => a.time ≤ b.time, closed := closed }

/-- Lets pipes that streams go to stay open until a moment, if there is one. -/
def holdPipes (handles : List (Nat × Handle)) (ended : Option Nat) : Eval Unit := modify fun p =>
  let isHeld (n : Nat) : Bool := handles.any fun (_, h) => h == .output (.pipe n)
  { p with pipes := p.pipes.map fun (n, pipe) =>
      if isHeld n then
        (n, { pipe with held := match pipe.held, ended with
          | some a, some b => some (max a b)
          | _, _ => none })
      else (n, pipe) }

/-- A text without the newlines at its end. -/
def dropNewlines (text : String) : String :=
  String.ofList (text.toList.reverse.dropWhile (· == '\n')).reverse

/-- What is printed in a copy of the shell, as it is. -/
def rawOutput (action : Eval Unit) : Eval String := do
  let n ← openPipe
  isolated run false do
    modify (·.setHandle 1 (some (.output (.pipe n))))
    action
  let flow ← closePipe n (some (← get).now)
  match flow.closed with
  | some time => passUntil time
  | none => passUntil ((← get).horizon + 1)
  return String.join (flow.chunks.map (·.text))

/-- What is printed in a copy of the shell, without newlines at the end and without zeros. -/
def captured (action : Eval Unit) : Eval String := do
  let text ← rawOutput run action
  modify fun p => { p with taken := some p.status }
  return dropNewlines (if text.toList.contains '\x00' then
    String.ofList (text.toList.filter (· != '\x00')) else text)

/-- Runs something in a copy of the shell; gives when it ends, if it does before the run is
over. -/
def runToEnd (quiet : Bool) (action : Eval Unit) : Eval (Option Nat) := do
  let before ← get
  tryCatch (do isolated run quiet action; return some (← get).now) fun
    | .late => do
      set { (← get).leave before with steps := before.steps }
      return none
    | halt => throw halt

/-- How far a pipeline has come. -/
structure Progress where
  /-- What the next stage reads. -/
  input : Option Flow := none
  /-- When all stages so far have ended, if they have. -/
  ended : Option Nat

/-- Runs the stages of a pipeline, all from the same moment on. -/
def stagesFrom (tested : Bool) (start : Nat) : Progress → List Command → Eval Progress
  | progress, [] => return progress
  | progress, stage :: stages => do
    modify fun p => { p with now := start }
    let output ← if stages.isEmpty then pure none else some <$> openPipe
    let ended ← runToEnd run false do
      match progress.input with
      | some flow => modify fun p =>
          let (n, p) := p.openFlow flow
          p.setHandle 0 (some (.input n))
      | none => pure ()
      match output with
      | some n => modify (·.setHandle 1 (some (.output (.pipe n))))
      | none => pure ()
      run tested stage
    let input ← match output with
      | some n => some <$> closePipe n ended
      | none => pure none
    let latest := match progress.ended, ended with
      | some a, some b => some (max a b)
      | _, _ => none
    stagesFrom tested start ⟨input, latest⟩ stages

/-- Runs a pipeline.  It ends when all of its stages have ended. -/
def pipeline (tested : Bool) (stages : List Command) : Eval Unit := do
  let start := (← get).now
  let progress ← stagesFrom run tested start ⟨none, some start⟩ stages
  match progress.ended with
  | some time => passUntil time
  | none => passUntil ((← get).horizon + 1)

/-- The streams that a command has redirections of. -/
def redirected : Command → List Nat
  | .simple _ _ _ redirects | .group _ _ redirects | .subshell _ _ redirects =>
    redirects.map Redirect.stream
  | _ => []

/-- Runs a command in the background. -/
def background (command : Command) : Eval Unit := do
  let before ← get
  let (n, p) := before.nextFresh
  let (input, p) := p.openFlow { chunks := [] }
  set { p with job := n }
  let ended ← runToEnd run true do
    modify (·.setHandle 0 (some (.input input)))
    run false command
  let p ← get
  let own := { before with
    jobs := Job.addTo n ended p.status before.jobs, lastJob := some n }
  set { p.leave own with now := before.now, steps := before.steps, status := 0 }
  let others := redirected command
  holdPipes (before.handles.filter fun (stream, _) => !others.contains stream) ended

end MutationTesting.Shell
