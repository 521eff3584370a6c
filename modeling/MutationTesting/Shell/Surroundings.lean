import MutationTesting.Disk
import MutationTesting.Text.Bytes

/-!
# What is around a disk

Commands see directories and devices that are on no disk.  `fileKind?` says what is at a path,
be it on the disk or around it.
-/

namespace MutationTesting.Shell

/-- What a path leads to. -/
inductive FileKind where
  | directory
  | file
  | program
  | device
  deriving DecidableEq, Repr

/-- Directories that are always there. -/
def systemDirectories : List String := [
  "/", "/bin", "/boot", "/dev", "/dev/fd", "/etc", "/home", "/lib", "/media", "/mnt", "/opt",
  "/proc", "/root", "/run", "/sbin", "/srv", "/sys", "/tmp", "/usr", "/usr/bin", "/usr/lib",
  "/usr/local", "/usr/local/bin", "/usr/sbin", "/usr/share", "/var", "/var/tmp"]

/-- The directories that programs of the system are in. -/
def programDirectories : List String := ["/usr/bin", "/bin"]

/-- The devices that a script may open. -/
def devices : List String := [
  "/dev/null", "/dev/zero", "/dev/full", "/dev/random", "/dev/urandom", "/dev/tty"]

/-- An absolute path without slashes at its end. -/
def withoutSlashes (path : String) : String :=
  let rest := (path.toList.reverse.dropWhile (· == '/')).reverse
  if rest.isEmpty && Path.isAbsolute path then "/" else String.ofList rest

/-- The name of a program that is given by the path of a directory for programs. -/
def systemProgram? (path : String) : Option String :=
  match Path.parent? path, Path.fileName? path with
  | some directory, some name => if programDirectories.contains directory then some name else none
  | _, _ => none

/-- What is at a path, if there is something. -/
def fileKind? (d : Disk) (path : String) : Option FileKind :=
  let path := Text.decode path
  match d.find path with
  | .ok (_, .directory) => some .directory
  | .ok (location, .file _) => some (if d.isProgram location then .program else .file)
  | .error _ =>
    if systemDirectories.contains (withoutSlashes path) && !path.isEmpty then some .directory
    else if devices.contains path then some .device
    else none

end MutationTesting.Shell
