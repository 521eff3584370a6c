import MutationTesting.Path

/-!
# Files and directories

A `Disk` holds directories and files.  A file holds a text, or bytes that are no text.
Paths start from the disk's home directory unless they are absolute; `locate` walks one,
and the operations on files answer as an operating system does, with a `FileError` where
they cannot do what they were asked.
-/

namespace MutationTesting

/-- Why an operation on a file failed. -/
inductive FileError where
  | notFound
  | permissionDenied
  | alreadyExists
  | notADirectory
  | isADirectory
  | nameTooLong
  | directoryNotEmpty
  | zeroInName
  | notText
  | notRegular
  | noParent
  | zeroInData
  | tooManyArguments
  | notExecutable
  deriving DecidableEq, Repr

/-- What an operation says that failed. -/
def FileError.reason : FileError → String
  | .notFound => "No such file or directory"
  | .permissionDenied => "Permission denied"
  | .alreadyExists => "File exists"
  | .notADirectory => "Not a directory"
  | .isADirectory => "Is a directory"
  | .nameTooLong => "File name too long"
  | .directoryNotEmpty => "Directory not empty"
  | .zeroInName => "file name contained an unexpected NUL byte"
  | .notText => "stream did not contain valid UTF-8"
  | .notRegular => "the source path is neither a regular file nor a symlink to a regular file"
  | .noParent => "failed to create whole tree"
  | .zeroInData => "nul byte found in provided data"
  | .tooManyArguments => "Argument list too long"
  | .notExecutable => "Exec format error"

/-- The number that the operating system has for an error. -/
def FileError.number? : FileError → Option Nat
  | .notFound => some 2
  | .tooManyArguments => some 7
  | .notExecutable => some 8
  | .permissionDenied => some 13
  | .alreadyExists => some 17
  | .notADirectory => some 20
  | .isADirectory => some 21
  | .nameTooLong => some 36
  | .directoryNotEmpty => some 39
  | _ => none

/-- The reason for an error, with its number if it has one. -/
def FileError.message (e : FileError) : String :=
  match e.number? with
  | some n => s!"{e.reason} (os error {n})"
  | none => e.reason

/-- Whether an error says that something on a path is not there. -/
def FileError.isAbsence (e : FileError) : Bool := e = .notFound || e = .notADirectory

/-- What a file holds. -/
inductive Content where
  | text (text : String)
  /-- Bytes that are not the UTF-8 form of any text. -/
  | binary (bytes : List UInt8)
  deriving DecidableEq, Repr

namespace Content

def ofBytes (bytes : List UInt8) : Content :=
  match String.fromUTF8? bytes.toByteArray with
  | some decoded => .text decoded
  | none => .binary bytes

def bytes : Content → List UInt8
  | text decoded => decoded.toUTF8.toList
  | binary raw => raw

end Content

/-- The names that lead from the root to a file or directory. -/
abbrev Location := List String

/-- A directory, or a file with what it holds. -/
inductive Entry where
  | directory
  | file (content : Content)
  deriving DecidableEq, Repr

/-- Files and directories by where they are. -/
structure Disk where
  /-- What there is, apart from the root. -/
  entries : List (Location × Entry)
  /-- Where paths that are not absolute start. -/
  home : Location
  /-- The files that can be run as programs. -/
  programs : List Location := []
  deriving DecidableEq, Repr

namespace Disk

/-- A disk with nothing on it but an empty home directory. -/
def empty (name : String) : Disk := { entries := [([name], .directory)], home := [name] }

/-- What is at a location. -/
def lookup? (d : Disk) (location : Location) : Option Entry :=
  if location = [] then some .directory else (d.entries.find? (·.1 == location)).map (·.2)

/-- Puts an entry at a location, in place of what is there. -/
def put (d : Disk) (location : Location) (entry : Entry) : Disk :=
  { d with entries := d.entries.filter (·.1 != location) ++ [(location, entry)] }

/-- Takes away what is at a location. -/
def erase (d : Disk) (location : Location) : Disk :=
  { d with
    entries := d.entries.filter (·.1 != location)
    programs := d.programs.filter (· != location) }

/-- Takes away what is at a location and below it. -/
def eraseTree (d : Disk) (location : Location) : Disk :=
  { d with
    entries := d.entries.filter fun (other, _) => !location.isPrefixOf other
    programs := d.programs.filter fun other => !location.isPrefixOf other }

def isProgram (d : Disk) (location : Location) : Bool := d.programs.contains location

/-- Says of a file whether it can be run as a program. -/
def setProgram (d : Disk) (location : Location) (on : Bool) : Disk :=
  let others := d.programs.filter (· != location)
  { d with programs := if on then location :: others else others }

theorem find?_filter_self (location : Location) (entries : List (Location × Entry)) :
  (entries.filter (·.1 != location)).find? (·.1 == location) = none
  := by
  simp

theorem find?_filter_of_ne {location other : Location} (h : other ≠ location)
    (entries : List (Location × Entry)) :
  (entries.filter (·.1 != location)).find? (·.1 == other) = entries.find? (·.1 == other)
  := by
  induction entries with
  | nil => rfl
  | cons e entries ih => by_cases h₁ : e.1 = location <;> by_cases h₂ : e.1 = other <;> grind

@[simp] theorem lookup?_put_same (d : Disk) {location : Location} (h : location ≠ [])
    (entry : Entry) :
  (d.put location entry).lookup? location = some entry
  := by
  simp only [lookup?, put, if_neg h, List.find?_append, find?_filter_self]
  simp

theorem lookup?_put_of_ne (d : Disk) {location other : Location} (h : other ≠ location)
    (entry : Entry) :
  (d.put location entry).lookup? other = d.lookup? other
  := by
  simp [lookup?, put, List.find?_append, find?_filter_of_ne h, Ne.symm h]

@[simp] theorem lookup?_erase_same (d : Disk) {location : Location} (h : location ≠ []) :
  (d.erase location).lookup? location = none
  := by
  simp only [lookup?, erase, if_neg h, find?_filter_self, Option.map_none]

theorem lookup?_erase_of_ne (d : Disk) {location other : Location} (h : other ≠ location) :
  (d.erase location).lookup? other = d.lookup? other
  := by
  simp [lookup?, erase, find?_filter_of_ne h]

/-! ### Walking a path -/

/-- The location that a step leads to. -/
def step (location : Location) (name : String) : Location :=
  if name = "." then location
  else if name = ".." then location.dropLast
  else location ++ [name]

/-- The most bytes that a name may have. -/
def maxNameLength : Nat := 255

/-- The most bytes that a path may have. -/
def maxPathLength : Nat := 4095

/-- The directory that a walk along directories leads to. -/
def walk (d : Disk) (location : Location) : List String → Except FileError Location
  | [] => .ok location
  | name :: names =>
    if maxNameLength < name.utf8ByteSize then .error .nameTooLong
    else match d.lookup? (step location name) with
      | none => .error .notFound
      | some (.file _) => .error .notADirectory
      | some .directory => d.walk (step location name) names

/-- Where a path leads. -/
inductive Target where
  /-- A directory, because the path ends in `/`, `.` or `..` and nothing else. -/
  | directory (location : Location)
  /-- The place of a name in a directory that is there; the path may end in slashes. -/
  | name (location : Location) (slash : Bool)

/-- The names of a path in order, without those that are empty. -/
def names (path : String) : List String :=
  ((Path.segments path.toList).map fun (name, _) => String.ofList name).filter (!·.isEmpty)

/-- Walks all of a path but its last name. -/
def locate (d : Disk) (path : String) : Except FileError Target := do
  if path.isEmpty then throw .notFound
  if path.toList.contains '\x00' then throw .zeroInName
  if maxPathLength < path.utf8ByteSize then throw .nameTooLong
  let start := if Path.isAbsolute path then [] else d.home
  if d.lookup? start ≠ some .directory then throw .notFound
  match (names path).reverse with
  | [] => return .directory start
  | last :: before =>
    let parent ← d.walk start before.reverse
    if last = "." || last = ".." then return .directory (step parent last)
    else if maxNameLength < last.utf8ByteSize then throw .nameTooLong
    else return .name (parent ++ [last]) (path.toList.getLast? == some '/')

/-- What a path leads to, when there is such a thing. -/
def find (d : Disk) (path : String) : Except FileError (Location × Entry) := do
  match ← d.locate path with
  | .directory location => return (location, .directory)
  | .name location slash =>
    match d.lookup? location with
    | none => throw .notFound
    | some .directory => return (location, .directory)
    | some (.file content) =>
      if slash then throw .notADirectory else return (location, .file content)

/-! ### Operations -/

def isPresent (d : Disk) (path : String) : Bool := (d.find path).toOption.isSome

def isDirectory (d : Disk) (path : String) : Bool :=
  (d.find path).toOption.any fun (_, entry) => entry == .directory

/-- What the file at a path holds. -/
def readContent (d : Disk) (path : String) : Except FileError Content := do
  match ← d.find path with
  | (_, .directory) => throw .isADirectory
  | (_, .file content) => return content

/-- The text that the file at a path holds. -/
def readText (d : Disk) (path : String) : Except FileError String := do
  match ← d.readContent path with
  | .binary _ => throw .notText
  | .text text => return text

/-- Lets the file at a path hold something; it need not have been there. -/
def writeContent (d : Disk) (path : String) (content : Content) : Except FileError Disk := do
  match ← d.locate path with
  | .directory _ => throw .isADirectory
  | .name location slash =>
    if slash || d.lookup? location = some .directory then throw .isADirectory
    return d.put location (.file content)

def write (d : Disk) (path text : String) : Except FileError Disk :=
  d.writeContent path (.text text)

/-- Makes an empty file where there was nothing. -/
def create (d : Disk) (path : String) : Except FileError Disk := do
  match ← d.locate path with
  | .directory _ => throw .alreadyExists
  | .name location slash =>
    if slash then throw .isADirectory
    if (d.lookup? location).isSome then throw .alreadyExists
    return d.put location (.file (.text ""))

/-- Puts a text into a file that was made before.  If it is gone, the text goes with it. -/
def fill (d : Disk) (path text : String) : Disk :=
  match d.find path with
  | .ok (location, .file _) => d.put location (.file (.text text))
  | _ => d

/-- Lets one file hold what another one holds, and be a program if that is one. -/
def copy (d : Disk) (source target : String) : Except FileError Disk := do
  match ← d.find source with
  | (_, .directory) => throw .notRegular
  | (location, .file content) =>
    let d ← d.writeContent target content
    match d.find target with
    | .ok (place, _) => return d.setProgram place (d.isProgram location)
    | .error _ => return d

/-- Takes a file away. -/
def remove (d : Disk) (path : String) : Except FileError Disk := do
  match ← d.locate path with
  | .directory _ => throw .isADirectory
  | .name location slash =>
    match d.lookup? location with
    | none => throw .notFound
    | some .directory => throw .isADirectory
    | some (.file _) => if slash then throw .notADirectory else return d.erase location

/-- Takes a file or a directory with all that is in it away. -/
def removeTree (d : Disk) (path : String) : Except FileError Disk := do
  match ← d.find path with
  | (_, .file _) => d.remove path
  | (location, .directory) => return d.eraseTree location

/-- Makes a directory where there was nothing. -/
def makeDirectory (d : Disk) (path : String) : Except FileError Disk := do
  match ← d.locate path with
  | .directory _ => throw .alreadyExists
  | .name location _ =>
    if (d.lookup? location).isSome then throw .alreadyExists
    return d.put location .directory

/-- Makes a directory and those above it that are not there.  The fuel bounds the number
of those. -/
def makeDirectoriesWithin : Nat → Disk → String → Except FileError Disk
  | 0, _, _ => .error .noParent
  | fuel + 1, d, path =>
    if path.isEmpty then .ok d
    else match d.makeDirectory path with
      | .ok d => .ok d
      | .error .notFound =>
        match Path.parent? path with
        | none => .error .noParent
        | some parent => do
          let d ← makeDirectoriesWithin fuel d parent
          match d.makeDirectory path with
          | .ok d => return d
          | .error e => if d.isDirectory path then return d else throw e
      | .error e => if d.isDirectory path then .ok d else .error e

/-- Makes a directory and those above it that are not there. -/
def makeDirectories (d : Disk) (path : String) : Except FileError Disk :=
  makeDirectoriesWithin (path.length + 2) d path

/-- The names in the directory at a location. -/
def namesIn (d : Disk) (location : Location) : List String :=
  d.entries.filterMap fun (other, _) =>
    if other.length = location.length + 1 && location.isPrefixOf other then other.getLast? else none

/-- The names in the directory at a path. -/
def list (d : Disk) (path : String) : Except FileError (List String) := do
  match ← d.find path with
  | (_, .file _) => throw .notADirectory
  | (location, .directory) => return d.namesIn location

/-- The components of the one absolute path without detours to what is at a path. -/
def identify (d : Disk) (path : String) : Except FileError (List Path.Component) := do
  let (location, _) ← d.find path
  return .root :: location.map .normal

/-- The disk seen from another home directory. -/
def within (d : Disk) (path : String) : Except FileError Disk := do
  match ← d.find path with
  | (_, .file _) => throw .notADirectory
  | (location, .directory) => return { d with home := location }

/-- The paths of everything below the home directory in the order of their bytes, those of
directories with a slash at the end. -/
def contents (d : Disk) : List String :=
  let below := d.entries.filterMap fun (location, entry) =>
    if d.home.isPrefixOf location && location != d.home then
      let path := "/".intercalate (location.drop d.home.length)
      some (if entry = .directory then path ++ "/" else path)
    else none
  below.mergeSort fun a b => (Path.compareNames a b).isLE

end Disk

end MutationTesting
