import MutationTesting.Console
import MutationTesting.Disk
import MutationTesting.Oracle

/-!
# Procedures

A `Procedure` works on the outside world one `Request` at a time: operations on files,
questions to a test oracle, runs of programs, output.  It says what happens in which order
and leaves it to `run` to answer, so that the same procedure works on a disk in memory,
under a faulty disk, or up to a crash.
-/

namespace MutationTesting

/-- An operation on files. -/
inductive FileOperation where
  | readText (path : String)
  | isPresent (path : String)
  | isDirectory (path : String)
  | create (path : String)
  /-- Puts a text into a file that was created. -/
  | fill (path text : String)
  | write (path text : String)
  | copy (source target : String)
  | remove (path : String)
  | makeDirectories (path : String)
  | list (path : String)
  | identify (path : String)
  deriving DecidableEq, Repr

/-- What an operation gives. -/
abbrev FileOperation.Answer : FileOperation → Type
  | .readText _ => Except FileError String
  | .isPresent _ | .isDirectory _ => Bool
  | .create _ | .fill _ _ | .write _ _ | .copy _ _ | .remove _ | .makeDirectories _ =>
    Except FileError Unit
  | .list _ => Except FileError (List String)
  | .identify _ => Except FileError (List Path.Component)

/-- Takes a change of a disk up, or keeps the disk when it failed. -/
def Disk.commit (d : Disk) : Except FileError Disk → Except FileError Unit × Disk
  | .ok d' => (.ok (), d')
  | .error e => (.error e, d)

/-- Does an operation on a disk. -/
def Disk.perform (d : Disk) : (operation : FileOperation) → operation.Answer × Disk
  | .readText path => (d.readText path, d)
  | .isPresent path => (d.isPresent path, d)
  | .isDirectory path => (d.isDirectory path, d)
  | .create path => d.commit (d.create path)
  | .fill path text => (.ok (), d.fill path text)
  | .write path text => d.commit (d.write path text)
  | .copy source target => d.commit (d.copy source target)
  | .remove path => d.commit (d.remove path)
  | .makeDirectories path => d.commit (d.makeDirectories path)
  | .list path => (d.list path, d)
  | .identify path => (d.identify path, d)

/-- A program to run: this one again, or one that is looked up by name. -/
inductive Program where
  | itself
  | named (name : String)
  deriving DecidableEq, Repr

/-- A program with its arguments, where it runs and for how long at most. -/
structure Launch where
  program : Program
  args : List String
  workdir : Option String
  limit : Duration
  deriving DecidableEq, Repr

/-- The last second of a clock, which counts in numbers of 64 bits with a sign. -/
def lastSecond : Nat := 9223372036854775807

/-- What to print, given whether there is colour. -/
abbrev Message := Bool → Output

/-- What a procedure asks of the world. -/
inductive Request where
  | file (operation : FileOperation)
  /-- Runs the tests for a scope, for a limited time. -/
  | consult (scope : String) (limit : Duration)
  | launch (launch : Launch)
  /-- Whether the user has asked to stop. -/
  | isInterrupted
  /-- The time that has passed since some moment. -/
  | clock
  | print (message : Message)

/-- What a request gives.  An oracle that breaks down gives a message instead of an outcome. -/
abbrev Request.Answer : Request → Type
  | .file operation => operation.Answer
  | .consult _ _ => Except String Outcome
  | .launch _ => Except FileError Completion
  | .isInterrupted => Bool
  | .clock => Duration
  | .print _ => Unit

/-- A computation that asks for what lies outside of it, one request at a time. -/
inductive Procedure (α : Type) where
  | done (value : α)
  | ask (request : Request) (next : request.Answer → Procedure α)

namespace Procedure

def bind {α β : Type} (p : Procedure α) (f : α → Procedure β) : Procedure β :=
  match p with
  | done value => f value
  | ask request next => ask request fun answer => (next answer).bind f

instance : Monad Procedure where
  pure := done
  bind := bind

@[simp] theorem done_bind {α β : Type} (value : α) (f : α → Procedure β) :
  (done value >>= f) = f value
  := rfl

@[simp] theorem pure_bind' {α β : Type} (value : α) (f : α → Procedure β) :
  ((pure value : Procedure α) >>= f) = f value
  := rfl

@[simp] theorem ask_bind {α β : Type} (request : Request) (next : request.Answer → Procedure α)
    (f : α → Procedure β) :
  (ask request next >>= f) = ask request fun a => next a >>= f
  := rfl

theorem bind_done {α : Type} (p : Procedure α) :
  (p >>= done) = p
  := by
  induction p with
  | done => rfl
  | ask request next ih => rw [ask_bind]; exact congrArg _ (funext ih)

theorem bind_assoc {α β γ : Type} (p : Procedure α) (f : α → Procedure β)
    (g : β → Procedure γ) :
  (p >>= f >>= g) = p >>= fun a => f a >>= g
  := by
  induction p with
  | done => rfl
  | ask request next ih => simp only [ask_bind, ih]

/-- Runs a procedure in a world that answers requests. -/
def run {σ α : Type} (answer : (request : Request) → σ → request.Answer × σ) :
    Procedure α → σ → α × σ
  | done value, s => (value, s)
  | ask request next, s =>
    let (a, s) := answer request s
    run answer (next a) s

/-- Lets a procedure answer the questions to the test oracle. -/
def withOracle {α : Type} (oracle : String → Duration → Procedure (Except String Outcome)) :
    Procedure α → Procedure α
  | done value => done value
  | ask (.consult scope limit) next =>
    oracle scope limit >>= fun answer => (next answer).withOracle oracle
  | ask request next => ask request fun answer => (next answer).withOracle oracle

/-! ### Single requests -/

def request (r : Request) : Procedure r.Answer := ask r done

def file (operation : FileOperation) : Procedure operation.Answer := request (.file operation)

def readText (path : String) : Procedure (Except FileError String) := file (.readText path)
def isPresent (path : String) : Procedure Bool := file (.isPresent path)
def isDirectory (path : String) : Procedure Bool := file (.isDirectory path)
def create (path : String) : Procedure (Except FileError Unit) := file (.create path)
def fill (path text : String) : Procedure (Except FileError Unit) := file (.fill path text)
def write (path text : String) : Procedure (Except FileError Unit) := file (.write path text)
def copy (source target : String) : Procedure (Except FileError Unit) :=
  file (.copy source target)
def remove (path : String) : Procedure (Except FileError Unit) := file (.remove path)
def makeDirectories (path : String) : Procedure (Except FileError Unit) :=
  file (.makeDirectories path)
def list (path : String) : Procedure (Except FileError (List String)) := file (.list path)
def identify (path : String) : Procedure (Except FileError (List Path.Component)) :=
  file (.identify path)
def consult (scope : String) (limit : Duration) : Procedure (Except String Outcome) :=
  request (.consult scope limit)
def launch (launch : Launch) : Procedure (Except FileError Completion) :=
  request (.launch launch)
def isInterrupted : Procedure Bool := request .isInterrupted

def clock : Procedure Duration := request .clock

/-- Runs a program.  This breaks down where the program ends by itself but the moment at which
its time is up would come after the last second of the clock. -/
def runProgram (l : Launch) : Procedure (Except String (Except FileError Completion)) := do
  let start ← clock
  match ← launch l with
  | .ok (.exited success output) =>
    if lastSecond < (start + l.limit).secs then
      return .error "overflow when adding duration to instant"
    else return .ok (.ok (.exited success output))
  | completion => return .ok completion

def print (message : Message) : Procedure Unit := request (.print message)

end Procedure

end MutationTesting
