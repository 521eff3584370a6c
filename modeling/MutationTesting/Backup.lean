import MutationTesting.Procedure
import MutationTesting.Text.Search

/-!
# Backups

While a file holds a mutant, a `Guard` holds the text that it had and keeps it in a backup
beside the file.  A guard that is done with restores the file, by `restore` or else by
`drop`.  A backup that a run left behind shows that the run was interrupted, and
`restoreFromBackup` puts it back.
-/

namespace MutationTesting

namespace Backup

/-- Where the backup of a file is kept. -/
def path (file : String) : String :=
  Path.withFileName file ("." ++ (Path.fileName? file).getD "" ++ ".mutscore.bak")

/-- Whether compiled code of a module may have this name. -/
def isCompiledCode (stem name : String) : Bool :=
  (Text.afterStart? (stem ++ ".").toList name.toList).isSome
    && Text.endsWith ".pyc".toList name.toList

/-- Takes files away as far as that can be done. -/
def removeAll : List String → Procedure Unit
  | [] => pure ()
  | file :: files => do
    let _ ← Procedure.remove file
    removeAll files

/-- Takes the compiled code of a Python module away, which would hide a change to it. -/
def clearCompiledCode (file : String) : Procedure Unit := do
  match Path.extension? file, Path.parent? file, Path.fileStem? file with
  | some "py", some parent, some stem =>
    let cache := Path.join parent "__pycache__"
    match ← Procedure.list cache with
    | .error _ => pure ()
    | .ok names => removeAll ((names.filter (isCompiledCode stem)).map (Path.join cache))
  | _, _, _ => pure ()

/-- The backup that an interrupted run left of a file. -/
def interrupted? (file : String) : Procedure (Option String) := do
  return if ← Procedure.isPresent (path file) then some (path file) else none

/-- Puts a backup back and takes it away. -/
def restore (file backup : String) : Procedure (Except FileError Unit) := do
  match ← Procedure.copy backup file with
  | .error e => return .error e
  | .ok () =>
    match ← Procedure.remove backup with
    | .error e => return .error e
    | .ok () =>
      clearCompiledCode file
      return .ok ()

end Backup

/-- The hold on a file for the length of a cycle. -/
structure Guard where
  file : String
  backup : String
  /-- The text of the file when it was taken. -/
  saved : String
  /-- Whether the text is back in the file for good. -/
  restored : Bool
  deriving DecidableEq, Repr

namespace Guard

/-- Takes a hold on a file and makes its backup, which must not be there yet. -/
def acquire (file : String) : Procedure (Except FileError Guard) := do
  match ← Procedure.readText file with
  | .error e => return .error e
  | .ok saved =>
    match ← Procedure.create (Backup.path file) with
    | .error e => return .error e
    | .ok () =>
      match ← Procedure.fill (Backup.path file) saved with
      | .error e =>
        let _ ← Procedure.remove (Backup.path file)
        return .error e
      | .ok () => return .ok ⟨file, Backup.path file, saved, false⟩

/-- Takes the backup away, if it is there. -/
def removeBackup (g : Guard) : Procedure (Except FileError Unit) := do
  match ← Procedure.remove g.backup with
  | .error .notFound | .ok () =>
    Backup.clearCompiledCode g.file
    return .ok ()
  | .error e => return .error e

/-- Whether the file can be read and holds the saved text. -/
def holdsSaved (g : Guard) : Procedure Bool := do
  match ← Procedure.readText g.file with
  | .ok current => return current == g.saved
  | .error _ => return false

/-- Writes the saved text back, unless the file holds it, and takes the backup away. -/
def writeBack (g : Guard) : Procedure (Except FileError Unit) := do
  if ← g.holdsSaved then g.removeBackup
  else
    match ← Procedure.write g.file g.saved with
    | .error e => return .error e
    | .ok () => g.removeBackup

/-- Restores the file.  After a failure the guard can try again. -/
def restore (g : Guard) : Procedure (Except FileError Unit × Guard) := do
  match ← g.writeBack with
  | .error e => return (.error e, g)
  | .ok () => return (.ok (), { g with restored := true })

/-- Gives up the hold on a file and restores it if that has not been done. -/
def drop (g : Guard) : Procedure Unit := do
  if g.restored then pure ()
  else
    let _ ← g.writeBack
    pure ()

end Guard

end MutationTesting
