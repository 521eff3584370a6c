import MutationTesting.Shell.Builtin.Variable

/-!
# Commands on jobs and signals

Commands of the shell that leave loops, functions and the shell itself, that wait for commands
in the background, and that send signals and say what is done on them.
-/

namespace MutationTesting.Shell.Builtin

/-! ### Leaving -/

/-- The command `exit`; without an argument the status stays what it is. -/
def exit (args : List String) : Eval Unit := do
  let p ← get
  let status ← match args with
    | text :: _ => number text
    | [] => pure (p.saved.getD p.status)
  throw (.exit (status % 256))

/-- The command `return`. -/
def back (args : List String) : Eval Unit := do
  match args with
  | text :: _ => throw (.back (← number text))
  | [] => throw (.back (← get).status)

/-- The commands `break` and `continue`, by what they do to so many loops. -/
def leaveLoops (halt : Nat → Halt) (args : List String) : Eval Unit := do
  let levels ← match args with
    | text :: _ => number text
    | [] => pure 1
  if levels = 0 then fail ("Illegal number: " ++ args.headD "")
  else
    setStatus 0
    let levels := min levels (← get).loops
    if levels ≠ 0 then throw (halt levels)

/-! ### Signals -/

/-- Prints what is done on signals. -/
def showTraps : Eval Unit := do
  let traps := (← get).traps.mergeSort fun a b => a.1 ≤ b.1
  let lines := traps.map fun (n, action) =>
    let name := ((Signal.ofNumber? n).map (·.name)).getD ""
    s!"trap -- {quoted action} {name}"
  let _ ← emit 1 (unlines lines)

/-- Sets what is done on a signal: the usual thing, or an action. -/
def setTrap (signal : Nat) (action : Option String) : Eval Unit := modify fun p =>
  let traps := p.traps.filter (·.1 != signal)
  let reactions := p.reactions.filter (·.1 != (p.id, signal))
  { p with
    traps := match action with
      | some text => (signal, text) :: traps
      | none => traps
    reactions := if p.nested then p.reactions else match action with
      | some text => ((p.id, signal), !text.isEmpty) :: reactions
      | none => reactions }

/-- Sets what is done on signals that are given by texts. -/
def setTraps (action : Option String) : List String → Eval Unit
  | [] => setStatus 0
  | text :: texts => do
    match Signal.ofShortText? text with
    | some signal => do
      setTrap signal.number action
      setTraps action texts
    | none => do
      printError s!"trap: {text}: bad trap\n"
      setStatus 1

/-- The command `trap`. -/
def trap (args : List String) : Eval Unit := do
  let (_, args) ← takeOptions "" "" args
  match args with
  | [] => do
    showTraps
    setStatus 0
  | action :: texts =>
    if texts.isEmpty || (Text.digits? action.toList).isSome then setTraps none args
    else setTraps (if action = "-" then none else some action) texts

/-! ### Jobs -/

/-- Waits until a moment, or for ever.  Gives the signal that comes before, if something is to be
done on one. -/
def waitUntil (ended : Option Nat) : Eval (Option Nat) := do
  let p ← get
  let stop := ended.getD (p.horizon + 1)
  let due := p.coming.filter fun c =>
    c.time ≤ min stop p.horizon && c.shell == p.id
      && p.reactions.lookup (c.shell, c.signal) == some true
  match due.mergeSort fun a b => a.time ≤ b.time with
  | c :: _ => do
    passUntil c.time
    return some c.signal
  | [] => do
    passUntil stop
    return none

/-- The job that a text names: by its number as a process, or after a sign by its number among
the jobs. -/
def jobOf? (text : String) : Eval (Option Job) := do
  let jobs := (← get).jobs
  match text.toList with
  | '%' :: cs =>
    let found := match cs with
      | [] | ['%'] | ['+'] => jobs.head?
      | ['-'] => jobs[1]?
      | cs => jobs.find? fun job => some job.number == Text.digits? cs
    if found.isNone then fail s!"No such job: {text}" else return found
  | _ => do
    let n ← number text
    return jobs.find? fun job => Process.jobId job.id == n

/-- Notes that somebody has waited for jobs. -/
def noteWaited (p : Job → Bool) : Eval Unit := modify fun process =>
  { process with jobs := process.jobs.map fun job =>
      { job with waited := job.waited || p job } }

/-- Waits for jobs that texts name. -/
def waitFor (status : Nat) : List String → Eval Unit
  | [] => setStatus status
  | text :: texts => do
    match ← jobOf? text with
    | none => waitFor 127 texts
    | some job =>
      noteWaited (·.id == job.id)
      match ← waitUntil job.ended with
      | some signal => setStatus (128 + signal)
      | none => do
        match job.killed with
        | some (signal, time) => if time = (← get).now then printObituary signal
        | none => pure ()
        waitFor job.status texts

/-- Waits for all jobs. -/
def waitForAll : List Job → Eval Unit
  | [] => do
    noteWaited fun _ => true
    setStatus 0
  | job :: jobs => do
    match ← waitUntil job.ended with
    | some signal => setStatus (128 + signal)
    | none => waitForAll jobs

/-- The command `wait`. -/
def wait (args : List String) : Eval Unit := do
  let (_, args) ← takeOptions "" "" args
  if args.isEmpty then waitForAll (← get).jobs else waitFor 127 args

/-- What is said of a job at a moment. -/
def stateOf (job : Job) (now : Nat) : String :=
  if job.ended.all (now < ·) then "Running"
  else match job.killed with
    | some (signal, _) => Signal.obituaryOf signal
    | none => if job.status = 0 then "Done" else s!"Done({job.status})"

/-- The command `jobs`, which says of each job what it does; those that have ended are then
forgotten. -/
def showJobs (args : List String) : Eval Unit := do
  let (options, _) ← takeOptions "lp" "" args
  let p ← get
  let lines := p.jobs.zipIdx.map fun (job, i) =>
    let id := toString (Process.jobId job.id)
    if options.any (·.1 == 'p') then id
    else
      let mark := if i = 0 then "+" else if i = 1 then "-" else " "
      let id := if options.any (·.1 == 'l') then id ++ " " else ""
      padRight 33 (s!"[{job.number}] {mark} {id}" ++ stateOf job p.now)
  let _ ← emit 1 (unlines lines)
  modify fun p => { p with jobs := p.jobs.filter fun job => job.ended.all (p.now < ·) }
  setStatus 0

/-- Ends a job by a signal; what it would have printed or sent later is not. -/
def endJob (signal : Nat) (job : Job) : Eval Unit := modify fun p =>
  let ended : Job := { job with
    ended := some p.now, status := 128 + signal, killed := some (signal, p.now) }
  { p with
    events := p.events.filter fun e => !(e.job == job.id && p.now < e.time)
    coming := p.coming.filter (·.job != job.id)
    jobs := p.jobs.map fun other => if other.id = job.id then ended else other }

/-- Sends a signal to a process that is given by its number; gives whether there is one. -/
def sendTo (signal : Signal) (text : String) : Eval Bool := do
  let p ← get
  let job ← if text.startsWith "-" || text = "0" then pure none else jobOf? text
  match job with
  | some job =>
    if job.ended.any (· ≤ p.now) then return false
    else
      if !Signal.isHarmless signal.number && !Signal.isStop signal.number then
        endJob signal.number job
      return true
  | none =>
    let target := if text.startsWith "-" || text = "0" then some p.id else Text.digits? text.toList
    let parent := (p.value? "PPID").bind fun t => Text.digits? t.toList
    if target = some p.id || (target.isSome && target = parent) then
      let shell := target.getD p.id
      if signal.number = 0 then return true
      else if p.job ≠ p.shellJob then
        set { p with coming := ⟨p.now, signal.number, shell, p.job⟩ :: p.coming }
        return true
      else
        receive signal.number shell
        return true
    else return false

/-- Sends a signal to processes. -/
def sendToAll (signal : Signal) (status : Nat) : List String → Eval Unit
  | [] => setStatus status
  | text :: texts => do
    if ← sendTo signal text then sendToAll signal status texts
    else
      complain "No such process\n"
      sendToAll signal 1 texts

/-- Prints the names of signals, or that of one. -/
def listSignals : List String → Eval Unit
  | [] => do
    let names := (Signal.all.filter (·.number != 0)).map (·.name)
    let _ ← emit 1 (unlines ("0" :: names))
    setStatus 0
  | text :: _ => do
    let n ← number text
    match Signal.ofNumber? (if 128 < n then n - 128 else n) with
    | some signal =>
      if signal.number = 0 then fail s!"invalid signal number or exit status: {text}"
      let _ ← emit 1 (signal.name ++ "\n")
      setStatus 0
    | none => fail s!"invalid signal number or exit status: {text}"

/-- The command `kill`. -/
def kill (args : List String) : Eval Unit := do
  let usage : Eval Unit :=
    fail "Usage: kill [-s sigspec | -signum | -sigspec] [pid | job]... or\nkill -l [exitstatus]"
  let terminate := (Signal.ofNumber? 15).getD ⟨15, "TERM", "Terminated"⟩
  let given? (text : String) : Option Signal :=
    match text.toList with
    | '-' :: cs => Signal.ofShortText? (String.ofList cs)
    | _ => none
  match args with
  | [] => usage
  | first :: rest =>
    match given? first with
    | some signal =>
      let targets := if rest.head? = some "--" then rest.tail else rest
      if targets.isEmpty then usage else sendToAll signal 0 targets
    | none => do
      let (options, targets) ← takeOptions "l" "s" args
      if options.any (·.1 == 'l') then listSignals targets
      else
        let signal ← match options.lookup 's' with
          | none => pure terminate
          | some text =>
            match Signal.ofShortText? text with
            | some signal => pure signal
            | none => fail s!"invalid signal number or name: {text}"
        if targets.isEmpty then usage else sendToAll signal 0 targets

end MutationTesting.Shell.Builtin
