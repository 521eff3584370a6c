import MutationTesting.Host
import MutationTesting.Tree.Builtin

/-!
# The program

`main` runs the command line on the files whose paths stand on the standard input, one on a
line.  They are loaded into a disk in memory, the command line runs on that disk, and what it
changed is stored again.  A file of trees among them is a table of syntax trees for the
sources that are not parsed here.
-/

namespace MutationTesting

/-! ### Files in memory -/

namespace Disk

/-- The files below the home directory, by their paths from there. -/
def files (d : Disk) : List (String × Content) :=
  d.entries.filterMap fun (location, entry) =>
    match entry with
    | .file content =>
      if d.home.isPrefixOf location then
        some ("/".intercalate (location.drop d.home.length), content)
      else none
    | .directory => none

/-- The files that are new or hold something else than before. -/
def written (before after : Disk) : List (String × Content) :=
  after.files.filter fun file => !before.files.contains file

/-- The paths of the files that are there no more. -/
def removed (before after : Disk) : List String :=
  (before.files.map (·.1)).filter fun path => !(after.files.map (·.1)).contains path

/-- A disk with one more file, in directories that are made if they are not there. -/
def load (d : Disk) (path : String) (content : Content) : Disk :=
  let d := (Path.parent? path).elim d fun parent => (d.makeDirectories parent).toOption.getD d
  (d.writeContent path content).toOption.getD d

end Disk

namespace CommandLine

/-- The file that holds a table of syntax trees. -/
def treesFile : String := ".mutscore.trees.json"

/-- The trees that are on a disk. -/
def trees (d : Disk) : TreeTable :=
  match (d.readText treesFile).toOption.bind Json.parse? with
  | some json => TreeTable.ofJson json
  | none => []

def usage : String :=
  "usage: mutscore [--verbose] "
    ++ "|".intercalate (subcommands.map (·.1)) ++ " [arguments]"

/-- What is printed about arguments that do not make a command. -/
def explain (e : UsageError) : Output :=
  if e.exitCode = 0 then .line usage else .errorLine (s!"error: {e.name}\n" ++ usage)

/-- What a run prints last, and its exit code. -/
def conclude : Except UsageError Ending → Output × Nat
  | .error e => (explain e, e.exitCode)
  | .ok (.exited code) => ({}, code)
  | .ok (.brokenDown message) => (.errorLine message, 101)

/-! ### The outside -/

/-- The lines that are left on a stream. -/
partial def readLines (input : IO.FS.Stream) : IO (List String) := do
  let line ← input.getLine
  if line.isEmpty then return []
  return line.trimAsciiEnd.toString :: (← readLines input)

/-- A disk with the files at some paths. -/
def loadDisk (paths : List String) : IO Disk :=
  paths.foldlM (fun (d : Disk) (path : String) => do
    let bytes ← IO.FS.readBinFile path
    return d.load path (.ofBytes bytes.toList)) (.empty "home")

/-- Stores what has changed from one disk to another. -/
def storeDisk (before after : Disk) : IO Unit := do
  for (path, content) in before.written after do
    match Path.parent? path with
    | none | some "" => pure ()
    | some parent => IO.FS.createDirAll parent
    IO.FS.writeBinFile path content.bytes.toByteArray
  for path in before.removed after do
    IO.FS.removeFile path

/-- Runs the command line on a disk. -/
def runOn (disk : Disk) (args : List String) (color : Bool) : Disk × Output × Nat :=
  let (ending, host) :=
    Host.invoke (parserWith (trees disk)) args { Host.ofDisk disk with color := color }
  let (last, code) := conclude ending
  (host.disk, host.printed ++ last, code)

end CommandLine

end MutationTesting

/-- Runs the command line on the files that the standard input names. -/
def main (args : List String) : IO UInt32 := do
  let stdin ← IO.getStdin
  let stdout ← IO.getStdout
  let stderr ← IO.getStderr
  let paths ← MutationTesting.CommandLine.readLines stdin
  let before ← MutationTesting.CommandLine.loadDisk paths
  let (after, output, code) :=
    MutationTesting.CommandLine.runOn before args (← stdout.isTty)
  MutationTesting.CommandLine.storeDisk before after
  stdout.putStr output.out
  stderr.putStr output.err
  return code.toUInt32
