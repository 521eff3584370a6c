import MutationTesting.Locks

/-!
# Threads that lock files

Threads share a table of file locks.  A thread that locks a file finds the key of its path and
looks whether it is held: if not, it takes the key and has the lock, and otherwise it sleeps and
looks again when it is woken.  A thread that drops a lock gives the key back and then wakes all
that sleep.  A `LockMove` is one step of one thread that the others cannot divide.
-/

namespace MutationTesting

/-- A lock on a file, or one that a thread wants: the path by which it is asked for, and the key
of that path. -/
structure FileLock where
  path : String
  key : LockKey
  deriving DecidableEq, Repr

/-- How far a thread is in locking a file or dropping a lock. -/
inductive LockStage where
  /-- It does neither. -/
  | idle
  /-- It is about to look whether the key is held. -/
  | entering (wanted : FileLock)
  /-- It has seen that the key is held, and sleeps. -/
  | asleep (wanted : FileLock)
  /-- It has given a key back and is about to wake those that sleep. -/
  | waking
  deriving DecidableEq, Repr

/-- A thread that sleeps is about to look again when it is woken. -/
def LockStage.woken : LockStage → LockStage
  | asleep wanted => entering wanted
  | stage => stage

/-- Threads with the table that they share and the locks that have not been dropped. -/
structure LockThreads (ι : Type) where
  locks : FileLocks
  live : List FileLock
  stage : ι → LockStage

/-- A step of a thread. -/
inductive LockMove (ι : Type) where
  /-- Starts to lock the file at a path, and finds its key. -/
  | call (thread : ι) (path : String)
  /-- Looks whether the key is held, and takes it or falls asleep. -/
  | enter (thread : ι)
  /-- Wakes up without having been woken. -/
  | stir (thread : ι)
  /-- Starts to drop a lock, which any thread may have been handed, and gives its key back. -/
  | drop (thread : ι) (lock : FileLock)
  /-- Wakes all threads that sleep. -/
  | wake (thread : ι)
  deriving DecidableEq, Repr

namespace LockThreads

variable {ι : Type} [DecidableEq ι]

/-- Threads before the first step. -/
def start : LockThreads ι := ⟨.none, [], fun _ => .idle⟩

/-- One thread comes to a stage. -/
def turn (s : LockThreads ι) (thread : ι) (stage : LockStage) : LockThreads ι :=
  { s with stage := fun other => if other = thread then stage else s.stage other }

@[simp] theorem locks_turn (s : LockThreads ι) (thread : ι) (stage : LockStage) :
  (s.turn thread stage).locks = s.locks
  := rfl

@[simp] theorem live_turn (s : LockThreads ι) (thread : ι) (stage : LockStage) :
  (s.turn thread stage).live = s.live
  := rfl

@[simp] theorem stage_turn_self (s : LockThreads ι) (thread : ι) (stage : LockStage) :
  (s.turn thread stage).stage thread = stage
  := if_pos rfl

theorem stage_turn_of_ne (s : LockThreads ι) {thread other : ι} (h : other ≠ thread)
    (stage : LockStage) :
  (s.turn thread stage).stage other = s.stage other
  := if_neg h

/-- What comes of a step, given what paths lead to, if the thread is where it can make it. -/
def step? (canonical : String → Except FileError LockKey) (s : LockThreads ι) :
    LockMove ι → Option (LockThreads ι)
  | .call thread path =>
    match s.stage thread with
    | .idle => some (s.turn thread (.entering ⟨path, .ofPath path (canonical path)⟩))
    | _ => none
  | .enter thread =>
    match s.stage thread with
    | .entering wanted =>
      match s.locks.lock? wanted.key with
      | some locks => some ({ s with locks, live := wanted :: s.live }.turn thread .idle)
      | none => some (s.turn thread (.asleep wanted))
    | _ => none
  | .stir thread =>
    match s.stage thread with
    | .asleep wanted => some (s.turn thread (.entering wanted))
    | _ => none
  | .drop thread lock =>
    match s.stage thread with
    | .idle =>
      if lock ∈ s.live then
        some ({ s with locks := s.locks.unlock lock.key, live := s.live.erase lock }.turn
          thread .waking)
      else none
    | _ => none
  | .wake thread =>
    match s.stage thread with
    | .waking => some ({ s with stage := fun other => (s.stage other).woken }.turn thread .idle)
    | _ => none

/-- What comes of some steps, one after the other. -/
def run? (canonical : String → Except FileError LockKey) :
    List (LockMove ι) → LockThreads ι → Option (LockThreads ι)
  | [], s => some s
  | move :: moves, s => (s.step? canonical move).bind (run? canonical moves)

/-- Whether the file at a path is locked.  To ask changes nothing. -/
def isLocked (canonical : String → Except FileError LockKey) (s : LockThreads ι)
    (path : String) : Bool :=
  s.locks.isLocked (.ofPath path (canonical path))

end LockThreads

end MutationTesting
