import MutationTesting.Procedure

/-!
# File locks

A `FileLocks` table says which files have an active cycle.  The key of a file is its one
absolute path without detours, so that two spellings of a path lock each other out; a path
that leads nowhere is its own key.
-/

namespace MutationTesting

/-- The components of a path by which a file is locked. -/
abbrev LockKey := List Path.Component

/-- The key of a path, given what it leads to. -/
def LockKey.ofPath (path : String) : Except FileError LockKey → LockKey
  | .ok key => key
  | .error _ => Path.components path

/-- Asks what a path leads to, and gives its key. -/
def LockKey.find (path : String) : Procedure LockKey := do
  return .ofPath path (← Procedure.identify path)

/-- The locks that are held at a time. -/
structure FileLocks where
  /-- The keys that are held, each once. -/
  held : List LockKey
  deriving DecidableEq, Repr

namespace FileLocks

def none : FileLocks := ⟨[]⟩

def isLocked (locks : FileLocks) (key : LockKey) : Bool := locks.held.contains key

/-- Takes a key, if nobody holds it. -/
def lock? (locks : FileLocks) (key : LockKey) : Option FileLocks :=
  if locks.isLocked key then .none else some ⟨key :: locks.held⟩

/-- Gives a key back. -/
def unlock (locks : FileLocks) (key : LockKey) : FileLocks := ⟨locks.held.filter (· != key)⟩

theorem isLocked_none (key : LockKey) :
  none.isLocked key = false
  := rfl

theorem isLocked_of_lock? {locks taken : FileLocks} {key other : LockKey}
    (h : locks.lock? key = some taken) :
  taken.isLocked other = (other == key || locks.isLocked other)
  := by
  simp only [lock?] at h
  split at h
  · cases h
  · cases h; rfl

theorem isLocked_unlock (locks : FileLocks) (key other : LockKey) :
  (locks.unlock key).isLocked other = (other != key && locks.isLocked other)
  := by
  by_cases h : other = key <;> simp [unlock, isLocked, h]

/-- Where nothing is locked, a key can be taken. -/
theorem isSome_lock? {locks : FileLocks} (h : locks = none) (key : LockKey) :
  (locks.lock? key).isSome
  := by
  subst h
  rfl

/-- Where nothing was locked, nothing is after a key was taken and given back. -/
theorem unlock_get_lock? {locks : FileLocks} (h : locks = none) (key : LockKey) :
  ((locks.lock? key).get (isSome_lock? h key)).unlock key = none
  := by
  subst h
  simp [lock?, isLocked, none, unlock]

end FileLocks

end MutationTesting
