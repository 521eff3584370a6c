import MutationTesting.CommandLine.Run
import MutationTesting.Oracle.Scripted
import MutationTesting.Shell.Execute

/-!
# Hosts

A `Host` is a world for procedures to work in: a disk, what has been printed, and a scripted
oracle.  Programs run as shell scripts on the same disk; a run of this program is one of its
command line.
-/

namespace MutationTesting

/-- All that a request may ask for or change. -/
structure Host where
  disk : Disk
  printed : Output
  /-- What answers questions to an oracle. -/
  oracle : ScriptedOracle
  /-- Whether the user has asked to stop. -/
  interrupted : Bool
  /-- How long the host has been up. -/
  time : Duration
  /-- Whether what is printed has colour. -/
  color : Bool
  /-- Whether this program was ended by a signal. -/
  killed : Bool

namespace Host

/-- A host with a disk on which nothing has happened yet.  It has been up for a day. -/
def ofDisk (disk : Disk) : Host where
  disk := disk
  printed := {}
  oracle := ⟨[], none, []⟩
  interrupted := false
  time := .ofSeconds 86400
  color := false
  killed := false

/-- A way to run programs on a host. -/
abbrev Launcher := Launch → Host → Except FileError Completion × Host

/-- Answers a request, with a way to run programs. -/
def answer (launcher : Launcher) : (request : Request) → Host → request.Answer × Host
  | .file operation, host =>
    let (a, disk) := host.disk.perform operation
    (a, { host with disk := disk })
  | .consult scope limit, host =>
    let (a, oracle, disk) := host.oracle.consult scope limit host.disk
    (a, { host with oracle := oracle, disk := disk })
  | .launch l, host => launcher l host
  | .isInterrupted, host => (host.interrupted, host)
  | .clock, host => (host.time, host)
  | .print message, host => ((), { host with printed := host.printed ++ message host.color })

/-! ### Running programs -/

/-- The disk as a run sees it that gets texts and starts in a directory. -/
def diskFor (host : Host) (texts : List String) (workdir : Option String) :
    Except FileError Disk := do
  Shell.checkTexts (texts ++ workdir.toList)
  match workdir with
  | none => return host.disk
  | some path => host.disk.within path

/-- Runs a program that is looked up by name. -/
def runNamed (name : String) (l : Launch) (host : Host) : Except FileError Completion × Host :=
  let run := do
    let disk ← host.diskFor (name :: l.args) l.workdir
    Shell.execute disk name l.args l.limit.toNanos
  match run with
  | .error e => (.error e, host)
  | .ok execution =>
    (.ok execution.completion, { host with
      disk := { execution.disk with home := host.disk.home }
      killed := host.killed || execution.orphaned })

/-- Runs a procedure until it is done or this program is ended by a signal. -/
def runAlive {α : Type} (launcher : Launcher) : Procedure α → Host → Option α × Host
  | .done value, host => (some value, host)
  | .ask request next, host =>
    let (a, host) := answer launcher request host
    if host.killed then (none, host) else runAlive launcher (next a) host

/-- How a run of this program looks from outside that has ended by itself, or by a signal. -/
def completionOf (printed : Output) : Option CommandLine.Ending → Completion
  | some (.exited code) => .exited (code == 0) (combineStreams printed.out printed.err)
  | some (.brokenDown message) =>
    .exited false (combineStreams printed.out (printed.err ++ message))
  | none => .exited false (combineStreams printed.out printed.err)

/-- Runs this program itself. -/
def runItself (launcher : Launcher) (parser : Parser) (l : Launch) (host : Host) :
    Except FileError Completion × Host :=
  match host.diskFor l.args l.workdir with
  | .error e => (.error e, host)
  | .ok disk =>
    match CommandLine.parse l.args with
    | .error e => (.ok (.exited (e.exitCode == 0) ""), host)
    | .ok invocation =>
      let (ending, inner) := runAlive launcher (CommandLine.run parser invocation)
        { host with disk := disk, printed := {}, color := false, killed := false }
      (.ok (completionOf inner.printed ending),
        { host with disk := { inner.disk with home := host.disk.home } })

/-- Runs programs; runs of this program within one another go down so many levels. -/
def launcher (parser : Parser) : Nat → Launcher
  | 0, l, host =>
    match l.program with
    | .itself => (.error .notFound, host)
    | .named name => runNamed name l host
  | depth + 1, l, host =>
    match l.program with
    | .itself => runItself (launcher parser depth) parser l host
    | .named name => runNamed name l host

/-- How far runs of this program within one another go down. -/
def maxDepth : Nat := 2

/-- Runs a procedure on a host. -/
def perform {α : Type} (parser : Parser) (p : Procedure α) (host : Host) : α × Host :=
  p.run (answer (launcher parser maxDepth)) host

/-- Runs the command line on a host, and gives how that ended. -/
def invoke (parser : Parser) (args : List String) (host : Host) :
    Except CommandLine.UsageError CommandLine.Ending × Host :=
  match CommandLine.parse args with
  | .error e => (.error e, host)
  | .ok invocation =>
    let (ending, host) := perform parser (CommandLine.run parser invocation) host
    (.ok ending, host)

end Host

end MutationTesting
