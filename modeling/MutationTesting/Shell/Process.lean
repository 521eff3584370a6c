import MutationTesting.Disk
import MutationTesting.Shell
import MutationTesting.Shell.Signal
import MutationTesting.Text.Bytes
import MutationTesting.Text.Numeral

/-!
# Processes of the shell

A `Process` is a shell at work.  It has a state of its own, which a shell inside of it gets a
copy of, and a world that it shares with all others: a disk, what has been printed, and a
clock that only waiting moves.  What is printed is noted with its time, so that a command
that goes on in the background, or beyond a time limit, is seen to have printed just what it
could have printed by then.
-/

namespace MutationTesting.Shell

/-! ### Streams -/

/-- Where a stream goes to. -/
inductive Sink where
  /-- A stream of the whole run: 1 is the output, 2 is for errors. -/
  | stream (n : Nat)
  | pipe (n : Nat)
  | file (path : String)
  | nowhere
  deriving DecidableEq, Repr

/-- Something printed, when, and by which job. -/
structure Event where
  time : Nat
  stream : Nat
  job : Nat
  text : String
  deriving DecidableEq, Repr

/-- A part of what is read, and when it is there. -/
structure Chunk where
  time : Nat
  text : String
  deriving DecidableEq, Repr

/-- What is left to read of something. -/
structure Flow where
  chunks : List Chunk
  /-- When the end shows, if it does. -/
  closed : Option Nat := some 0
  isFile : Bool := false
  deriving DecidableEq, Repr

/-- What was written to a pipe, the last chunk first. -/
structure Pipe where
  chunks : List Chunk := []
  size : Nat := 0
  /-- Until when jobs in the background hold it open; without an end if there is none. -/
  held : Option Nat := some 0
  deriving DecidableEq, Repr

/-- What a stream of a process is. -/
inductive Handle where
  | input (flow : Nat)
  | output (sink : Sink)
  deriving DecidableEq, Repr

/-! ### States -/

/-- A variable; it may have been declared without a value. -/
structure Binding where
  value : Option String
  exported : Bool := false
  constant : Bool := false
  deriving DecidableEq, Repr

/-- A command in the background: when it ends, if it does, and with what status. -/
structure Job where
  id : Nat
  /-- What it is called among the jobs of its shell. -/
  number : Nat
  ended : Option Nat
  status : Nat
  /-- Whether somebody has waited for it. -/
  waited : Bool := false
  /-- The signal that has just ended it, and when. -/
  killed : Option (Nat × Nat) := none
  deriving DecidableEq, Repr

/-- A job is added to others in the place of one that has ended and was waited for, or else after
all of them. -/
def Job.addTo (id : Nat) (ended : Option Nat) (status : Nat) (jobs : List Job) : List Job :=
  let kept (n : Nat) : Bool := jobs.any fun job => job.number == n && !job.waited
  let number := ((List.range (jobs.length + 1)).map (· + 1)).find? fun n => !kept n
  let number := number.getD (jobs.length + 1)
  { id := id, number := number, ended := ended, status := status } ::
    jobs.filter (·.number != number)

/-- What a shell has of its own. -/
structure Own where
  bindings : List (String × Binding)
  functions : List (String × Command) := []
  /-- What messages call the shell. -/
  name : String
  /-- The file or the command that messages name after the line. -/
  context : Option String := none
  args : List String := []
  /-- The options that are on. -/
  options : List Char := []
  /-- What is done on signals. -/
  traps : List (Nat × String) := []
  /-- The number that the shell has as a process. -/
  id : Nat
  jobs : List Job := []
  /-- The job in the background that was started last. -/
  lastJob : Option Nat := none
  /-- The number of loops that a command is inside of. -/
  loops : Nat := 0
  /-- The number of functions that a command is inside of. -/
  calls : Nat := 0
  /-- The variables that functions have made their own, with what they were before, the
  innermost function first. -/
  locals : List (List (String × Option Binding)) := []
  handles : List (Nat × Handle)
  line : Nat := 1
  /-- The job that the shell is part of. -/
  job : Nat := 0
  /-- The argument that options are read from next, and the place in the one before it if that
  holds further ones. -/
  option : Nat × Nat := (1, 0)
  /-- Whether this is a copy of the shell that has the number. -/
  nested : Bool := false
  /-- The job that the shell with the number is part of. -/
  shellJob : Nat := 0
  /-- The status from before what is being done on a signal. -/
  saved : Option Nat := none

/-- A signal that a job in the background sends to a shell. -/
structure Coming where
  time : Nat
  signal : Nat
  shell : Nat
  /-- The job that sends it. -/
  job : Nat
  deriving DecidableEq, Repr

/-- The shell that runs, with all that it shares with those it has started. -/
structure Process extends Own where
  disk : Disk
  /-- The status of the last command. -/
  status : Nat := 0
  /-- The status of the last command whose output was taken, if there was one. -/
  taken : Option Nat := none
  /-- The nanoseconds since the start of the run. -/
  now : Nat := 0
  /-- When the run is over in any case. -/
  horizon : Nat
  coming : List Coming := []
  /-- Signals that a shell, given by its number, ignores or does something on. -/
  reactions : List ((Nat × Nat) × Bool) := []
  /-- Signals on which a shell has yet to do something. -/
  pending : List (Nat × Nat) := []
  steps : Nat := 0
  /-- What was printed, the last first. -/
  events : List Event := []
  pipes : List (Nat × Pipe) := []
  flows : List (Nat × Flow)
  /-- A number for the next pipe, flow or job. -/
  fresh : Nat := 1

/-- What ends a command before its last step. -/
inductive Halt where
  | exit (status : Nat)
  /-- An error of which a message was printed. -/
  | flaw (status : Nat)
  /-- A signal ends the shell with a number, or else the innermost process. -/
  | killed (signal : Nat) (shell : Option Nat)
  /-- The time is up. -/
  | late
  /-- Leaves so many loops. -/
  | leave (levels : Nat)
  /-- Goes on with the next round of a loop so many levels up. -/
  | next (levels : Nat)
  | back (status : Nat)
  deriving DecidableEq, Repr

/-- A run that changes the process and may be cut short. -/
abbrev Eval := ExceptT Halt (StateM Process)

/-- Runs a command; `tested` says that its status is asked for, so that a failure is none. -/
abbrev Runner := Bool → Command → Eval Unit

/-- The most steps that a run takes. -/
def maxSteps : Nat := 200000

/-- The most that a pipe takes of which nothing has been read. -/
def maxPipe : Nat := 1000000

namespace Process

/-- The number of the first process. -/
def firstId : Nat := 4242

/-- The number of a job as a process. -/
def jobId (n : Nat) : Nat := firstId + n

def hasOption (p : Process) (c : Char) : Bool := p.options.contains c

def setOption (p : Process) (c : Char) (on : Bool) : Process :=
  let others := p.options.filter (· != c)
  { p with options := if on then others ++ [c] else others }

/-- The directory that paths start from. -/
def directory (p : Process) : String := Text.encode ("/" ++ "/".intercalate p.disk.home)

/-! ### Variables -/

/-- The characters that part fields. -/
def separators (p : Process) : String :=
  match p.bindings.lookup "IFS" with
  | some binding => binding.value.getD " \t\n"
  | none => " \t\n"

/-- The value of a variable or of a special parameter; one that is not set has none. -/
def value? (p : Process) (name : String) : Option String :=
  match name with
  | "0" => some p.name
  | "#" => some (toString p.args.length)
  | "?" => some (toString p.status)
  | "$" => some (toString p.id)
  | "!" => p.lastJob.map fun n => toString (jobId n)
  | "-" => some (String.ofList p.options)
  | name =>
    if name.toList.all Text.isDigit then p.args[Text.digitsValue name.toList - 1]?
    else (p.bindings.lookup name).bind (·.value)

/-- Puts a variable in the place of the one with the same name. -/
def bind (p : Process) (name : String) (binding : Option Binding) : Process :=
  let others := p.bindings.filter (·.1 != name)
  { p with bindings := match binding with
      | some b => (name, b) :: others
      | none => others }

/-- Gives a variable a value. -/
def assign (p : Process) (name value : String) : Process :=
  let before := (p.bindings.lookup name).getD { value := none }
  let p := if name = "OPTIND" then { p with option := ((Text.digits? value.toList).getD 1, 0) }
    else p
  p.bind name (some { before with
    value := some value, exported := before.exported || p.hasOption 'a' })

/-- The variables that other programs get, by name. -/
def environment (p : Process) : List (String × String) :=
  let shown := p.bindings.filterMap fun (name, b) =>
    match b.value with
    | some value => if b.exported then some (name, value) else none
    | none => none
  shown.mergeSort fun a b => (Path.compareNames a.1 b.1).isLE

/-! ### Files -/

/-- What the file at a path holds. -/
def readFile (d : Disk) (path : String) : Except FileError String :=
  (d.readContent (Text.decode path)).map fun
    | .text text => Text.encode text
    | .binary bytes => Text.ofBytes bytes

/-- What a text of bytes is as the content of a file. -/
def contentOf (text : String) : Content :=
  if text.toList.all Text.isShort then .text text else .ofBytes (Text.toBytes text)

/-- Writes a text to the file at a path. -/
def writeFile (d : Disk) (path text : String) : Except FileError Disk :=
  d.writeContent (Text.decode path) (contentOf text)

/-- Adds a text to the end of a file that is there. -/
def appendTo (d : Disk) (path text : String) : Disk :=
  match d.find (Text.decode path) with
  | .ok (location, .file (.text before)) =>
    if text.toList.all Text.isShort then d.put location (.file (.text (before ++ text)))
    else d.put location (.file (.ofBytes (before.toUTF8.toList ++ Text.toBytes text)))
  | .ok (location, .file (.binary bytes)) =>
    d.put location (.file (.ofBytes (bytes ++ Text.toBytes text)))
  | _ => d

/-- The path of a file from the root on, so that it stays the same in other directories. -/
def absolute (p : Process) (path : String) : String :=
  match p.disk.locate (Text.decode path) with
  | .ok (.name location _) | .ok (.directory location) =>
    Text.encode ("/" ++ "/".intercalate location)
  | .error _ => path

/-! ### Shells inside of shells -/

/-- Makes a variable one of the innermost function, after which it gets back what it was. -/
def makeLocal (p : Process) (name : String) : Process :=
  match p.locals with
  | [] => p
  | frame :: frames =>
    if (frame.lookup name).isSome then p
    else { p with locals := ((name, p.bindings.lookup name) :: frame) :: frames }

/-- Gives the variables of the innermost function back what they were. -/
def dropLocals (p : Process) : Process :=
  match p.locals with
  | [] => p
  | frame :: frames =>
    frame.foldl (fun p (name, binding) =>
      if name = "-" then
        { p with options := ((binding.bind (·.value)).map String.toList).getD p.options }
      else p.bind name binding) { p with locals := frames }

/-- The state of `p` in what is shared, and of `own` in what belongs to one shell. -/
def leave (p own : Process) : Process :=
  { p with
    toOwn := own.toOwn
    disk := { p.disk with home := own.disk.home } }

/-- The number for something new. -/
def nextFresh (p : Process) : Nat × Process := (p.fresh, { p with fresh := p.fresh + 1 })

/-- Makes a flow, and gives its number. -/
def openFlow (p : Process) (flow : Flow) : Nat × Process :=
  (p.fresh, { p with fresh := p.fresh + 1, flows := (p.fresh, flow) :: p.flows })

def flow? (p : Process) (n : Nat) : Option Flow := p.flows.lookup n

def setFlow (p : Process) (n : Nat) (flow : Flow) : Process :=
  { p with flows := (n, flow) :: p.flows.filter (·.1 != n) }

def handle? (p : Process) (stream : Nat) : Option Handle := p.handles.lookup stream

/-- Sets what a stream is; without a handle it is closed. -/
def setHandle (p : Process) (stream : Nat) (handle : Option Handle) : Process :=
  let others := p.handles.filter (·.1 != stream)
  { p with handles := match handle with
      | some h => (stream, h) :: others
      | none => others }

end Process

/-! ### Steps -/

def setStatus (status : Nat) : Eval Unit := modify fun p => { p with status := status }

/-- Counts a step; a run that takes too many has no end. -/
def tick : Eval Unit := do
  modify fun p => { p with steps := p.steps + 1 }
  if maxSteps < (← get).steps then throw .late

/-- Lets a signal come to a shell: it is ignored, or waits until something is done on it, or
ends the shell. -/
def receive (signal shell : Nat) : Eval Unit := do
  let p ← get
  match p.reactions.lookup (shell, signal) with
  | some true => set { p with pending := p.pending ++ [(shell, signal)] }
  | some false => pure ()
  | none =>
    if Signal.isStop signal then throw .late
    else if !Signal.isHarmless signal then throw (.killed signal (some shell))

/-- Lets time pass up to a moment.  Signals that come before it take effect; the run is over
when the horizon is reached. -/
def passUntil (time : Nat) : Eval Unit := do
  let p ← get
  let (due, later) := p.coming.partition fun c => c.time ≤ min time p.horizon
  set { p with coming := later }
  for c in due.mergeSort fun a b => a.time ≤ b.time do
    modify fun p => { p with now := max p.now c.time }
    receive c.signal c.shell
  modify fun p => { p with now := max p.now time }
  if p.horizon < time then throw .late

/-- Lets so many milliseconds go by. -/
def pass (delay : Nat) : Eval Unit := do passUntil ((← get).now + delay)

/-! ### Printing -/

/-- Prints to a sink. -/
def emitTo (sink : Sink) (text : String) : Eval Unit := do
  let p ← get
  if !text.isEmpty then
    match sink with
    | .stream n => set { p with events := ⟨p.now, n, p.job, text⟩ :: p.events }
    | .pipe n =>
      match p.pipes.lookup n with
      | some pipe =>
        if maxPipe < pipe.size then throw (.killed 13 none)
        else
          let pipe := { pipe with
            chunks := ⟨p.now, text⟩ :: pipe.chunks, size := pipe.size + text.utf8ByteSize }
          set { p with pipes := (n, pipe) :: p.pipes.filter (·.1 != n) }
      | none => throw (.killed 13 none)
    | .file path => set { p with disk := Process.appendTo p.disk path text }
    | .nowhere => pure ()

/-- Prints on a stream; gives whether that could be done. -/
def emit (stream : Nat) (text : String) : Eval Bool := do
  match (← get).handle? stream with
  | some (.output sink) =>
    emitTo sink text
    return true
  | _ => return text.isEmpty

/-- Prints to the stream for errors. -/
def printError (text : String) : Eval Unit := do
  let _ ← emit 2 text

/-- Says something about the current command. -/
def complain (text : String) : Eval Unit := do
  let p ← get
  let context := match p.context with
    | some context => s!"{context}: "
    | none => ""
  printError s!"{p.name}: {p.line}: {context}{text}\n"

/-- Ends a command with a message. -/
def fail {α : Type} (text : String) : Eval α := do
  complain text
  throw (.flaw 2)

/-- Complains about a text that is no name of a variable, or one of a constant. -/
def checkName (name : String) : Eval Unit := do
  if !isName name then fail s!"{name}: bad variable name"
  else if (((← get).bindings.lookup name).map (·.constant)).getD false then
    fail s!"{name}: is read only"

/-- Gives a variable a value, unless it is constant. -/
def assign (name value : String) : Eval Unit := do
  checkName name
  modify (·.assign name value)

/-- Gives a variable a value for other programs, which lasts as long as the innermost
function. -/
def assignLocal (name value : String) : Eval Unit := do
  checkName name
  modify fun p => (p.makeLocal name).bind name (some { value := some value, exported := true })

/-- Does something with variables of its own. -/
def withLocals (action : Eval Unit) : Eval Unit := do
  modify fun p => { p with locals := [] :: p.locals }
  tryCatch action fun halt => do
    modify (·.dropLocals)
    throw halt
  modify (·.dropLocals)

/-- Does something that messages name. -/
def withContext (context : String) (action : Eval Unit) : Eval Unit := do
  let before := (← get).context
  let restore : Eval Unit := modify fun p => { p with context := before }
  modify fun p => { p with context := some context }
  tryCatch action fun halt => do
    restore
    throw halt
  restore

/-! ### Reading -/

/-- Takes the next chunk off a flow, if there is one.  Time passes until it is there. -/
def takeChunk (n : Nat) : Eval (Option String) := do
  match (← get).flow? n with
  | none => return none
  | some flow =>
    match flow.chunks with
    | chunk :: chunks =>
      passUntil chunk.time
      modify (·.setFlow n { flow with chunks := chunks })
      return some chunk.text
    | [] =>
      match flow.closed with
      | some time =>
        passUntil time
        return none
      | none =>
        passUntil ((← get).horizon + 1)
        return none

/-- Takes all chunks off a flow.  The fuel bounds their number. -/
def takeAll (n : Nat) : Nat → List String → Eval (List String)
  | 0, texts => return texts
  | fuel + 1, texts => do
    match ← takeChunk n with
    | some text => takeAll n fuel (text :: texts)
    | none => return texts

/-- Reads a flow to its end. -/
def readFlow (n : Nat) : Eval String := do
  let count := (((← get).flow? n).map (·.chunks.length)).getD 0
  return String.join (← takeAll n (count + 1) []).reverse

/-- Puts a text back in front of a flow. -/
def putBack (n : Nat) (text : String) : Eval Unit := modify fun p =>
  match p.flow? n with
  | some flow =>
    if text.isEmpty then p else p.setFlow n { flow with chunks := ⟨p.now, text⟩ :: flow.chunks }
  | none => p

/-- The flow that a stream reads from. -/
def inputOf (stream : Nat) : Eval (Option Nat) := do
  match (← get).handle? stream with
  | some (.input n) => return some n
  | _ => return none

end MutationTesting.Shell
