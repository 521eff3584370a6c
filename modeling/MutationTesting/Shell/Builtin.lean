import MutationTesting.Shell.Builtin.Job
import MutationTesting.Shell.Condition
import MutationTesting.Shell.Launch

/-!
# Commands of the shell

The commands that are part of the shell itself.  `builtin?` gives what a name is for, given
ways to run commands and programs; an error of a special one ends the shell.
-/

namespace MutationTesting.Shell.Builtin

/-! ### Printing -/

/-- Prints the output of a command; it fails if that cannot be done. -/
def printAs (name text : String) : Eval Unit := do
  if ← emit 1 text then setStatus 0
  else
    complain s!"{name}: I/O error"
    setStatus 1

/-- The command `printf`. -/
def printBy : List String → Eval Unit
  | [] => fail "usage: printf format [arg ...]"
  | format :: args => do
    let (options, words) ← takeOptions "" "" (format :: args)
    let p := Format.print (words.headD "") words.tail
    if words.isEmpty || !options.isEmpty then fail "usage: printf format [arg ...]"
    else
      p.complaints.reverse.forM complain
      match p.flaw with
      | some text => do
        complain text
        let _ ← emit 1 p.text
        throw (.flaw 2)
      | none => do
        printAs "printf" p.text
        if !p.complaints.isEmpty then setStatus 1

/-- The commands `test` and `[`. -/
def checkCondition (bracket : Bool) (args : List String) : Eval Unit := do
  let d := (← get).disk
  match if bracket then Condition.evaluateBracket d args else Condition.evaluate d args with
  | .ok holds => setStatus (if holds then 0 else 1)
  | .error flaw => fail flaw.message

/-! ### Directories -/

/-- Makes another directory the current one; gives whether that could be done. -/
def enter (path : String) : Eval Bool := do
  let p ← get
  let disk := match p.disk.within (Text.decode path) with
    | .ok disk => some disk
    | .error _ =>
      if fileKind? p.disk path = some FileKind.directory then
        some { p.disk with home := Disk.names (Text.decode path) }
      else none
  match disk with
  | none => return false
  | some disk =>
    let share (name value : String) : Eval Unit := do
      assign name value
      modify fun (p : Process) => p.bind name (some { value := some value, exported := true })
    let before := p.directory
    set { p with disk := disk }
    share "OLDPWD" before
    share "PWD" (← get).directory
    return true

/-- The command `cd`. -/
def changeDirectory (args : List String) : Eval Unit := do
  let (_, words) ← takeOptions "LP" "" args
  let p ← get
  let (path, shown) := match words with
    | [] => ((p.value? "HOME").getD "", false)
    | "-" :: _ => ((p.value? "OLDPWD").getD "", true)
    | word :: _ => (word, false)
  let isPlain := !(["/", "./", "../"].any fun (start : String) => path.startsWith start)
    && path != "." && path != ".."
  let roots := match p.value? "CDPATH" with
    | some text => if isPlain then (splitAt (· == ':') text.toList).map String.ofList else []
    | none => []
  let found := roots.find? fun root =>
    !root.isEmpty && fileKind? p.disk (pathWithin root path) = some .directory
  let target := match found with
    | some root => pathWithin root path
    | none => if path.isEmpty then "." else path
  if ← enter target then
    if shown || found.isSome then
      let _ ← emit 1 ((← get).directory ++ "\n")
    setStatus 0
  else fail s!"can't cd to {path}"

/-! ### Saying what names are for -/

/-- What a name is for, in a word or in a sentence; something without a meaning has none. -/
def describe (p : Process) (verbose : Bool) (name : String) : Option String :=
  let say (what : String) : String := if verbose then s!"{name} is {what}" else name
  if keywords.contains name then some (say "a shell keyword")
  else if specialNames.contains name then some (say "a special shell builtin")
  else if (p.functions.lookup name).isSome then some (say "a shell function")
  else if plainNames.contains name then some (say "a shell builtin")
  else
    let path := if name.toList.contains '/' then
        if (programAt p.disk name).toOption.isSome then some name else none
      else programPath? p name
    path.map fun path => if verbose then s!"{name} is {path}" else path
where
  /-- The commands that are not special. -/
  plainNames : List String := [
    "[", "alias", "bg", "cd", "chdir", "command", "echo", "false", "fg", "getopts", "hash", "jobs",
    "kill", "printf", "pwd", "read", "test", "true", "type", "ulimit", "umask", "unalias", "wait"]

/-- Says what names are for. -/
def describeAll (verbose : Bool) (names : List String) : Eval Unit := do
  let p ← get
  setStatus 0
  for name in names do
    match describe p verbose name with
    | some text => do
      let _ ← emit 1 (text ++ "\n")
    | none => do
      if verbose then
        let _ ← emit 1 s!"{name}: not found\n"
      setStatus 127

/-- The command `command` with options that ask what names are for. -/
def describeCommand (args : List String) : Eval Unit := do
  let (options, names) ← takeOptions "pvV" "" args
  match (options.filter (·.1 != 'p')).getLast? with
  | some (letter, _) => describeAll (letter == 'V') (names.take 1)
  | none => setStatus 0

/-- The command `hash`. -/
def findPrograms (args : List String) : Eval Unit := do
  let (_, names) ← takeOptions "r" "" args
  setStatus 0
  for name in names do
    if (describe (← get) false name).isNone then
      complain s!"{name}: not found"
      setStatus 1

/-- The commands `alias` and `unalias`, where no name is short for anything. -/
def refuseAliases (command : String) (args : List String) : Eval Unit := do
  setStatus 0
  for name in args.filter fun arg => !arg.startsWith "-" && !arg.toList.contains '=' do
    printError s!"{command}: {name} not found\n"
    setStatus 1

/-! ### Limits -/

/-- The command `umask`, which shows what it is but does not change it. -/
def showMask (args : List String) : Eval Unit := do
  let (options, words) ← takeOptions "S" "" args
  if words.isEmpty then
    let _ ← emit 1 (if options.isEmpty then "0022\n" else "u=rwx,g=rx,o=rx\n")
  setStatus 0

/-- The command `ulimit`, for which nothing has a limit. -/
def showLimit (args : List String) : Eval Unit := do
  let (_, words) ← takeOptions "HSatfdsclmpnvwr" "" args
  if words.isEmpty then
    let _ ← emit 1 "unlimited\n"
  setStatus 0

/-! ### Running other texts -/

section

variable (run : Runner) (launch : Launcher)

/-- The command `eval`. -/
def evaluateText (tested : Bool) (args : List String) : Eval Unit := do
  if !(← runText run tested (" ".intercalate args)) then setStatus 0

/-- The file that a script is read from: a name without a slash is looked up as programs are. -/
def scriptPath (name : String) : Eval String := do
  let p ← get
  if name.toList.contains '/' then return name
  else
    let paths := (searchPath p).map fun directory =>
      if directory.isEmpty then name else pathWithin directory name
    match paths.find? fun path => (fileKind? p.disk path).any (· != FileKind.directory) with
    | some path => return path
    | none => fail s!"{name}: not found"

/-- The command that runs a script in the same shell. -/
def runScript (args : List String) : Eval Unit := do
  match args with
  | [] => setStatus 0
  | name :: _ =>
    let path ← scriptPath name
    match Process.readFile (← get).disk path with
    | .error .isADirectory => setStatus 0
    | .error e =>
      let reason := if e.isAbsence then "No such file" else e.reason
      fail s!"cannot open {path}: {reason}"
    | .ok text =>
      withContext path do
        tryCatch (do if !(← runText run false text) then setStatus 0) fun
          | .back status => setStatus status
          | halt => throw halt

/-- The command `exec`: a program takes the place of the shell. -/
def replaceShell (args : List String) : Eval Unit := do
  match args with
  | [] => setStatus 0
  | words => do
    let words := if words.head? = some "--" then words.tail else words
    launch words
    modify fun p => { p with traps := p.traps.filter (·.1 != 0) }
    throw (.exit (← get).status)

/-- What a special command does. -/
def special? (tested : Bool) (name : String) (args : List String) : Option (Eval Unit) :=
  match name with
  | ":" => some (setStatus 0)
  | "." => some (runScript run args)
  | "break" => some (leaveLoops .leave args)
  | "continue" => some (leaveLoops .next args)
  | "eval" => some (evaluateText run tested args)
  | "exec" => some (replaceShell launch args)
  | "exit" => some (exit args)
  | "export" => some (declare false args)
  | "local" => some (localNames args)
  | "readonly" => some (declare true args)
  | "return" => some (back args)
  | "set" => some (setArguments args)
  | "shift" => some (shift args)
  | "times" => some (printAs name "0m0.00s 0m0.00s\n0m0.00s 0m0.00s\n")
  | "trap" => some (trap args)
  | "unset" => some (forget args)
  | _ => none

end

/-- What a command does that is part of the shell but not special. -/
def plain? (name : String) (args : List String) : Option (Eval Unit) :=
  match name with
  | "[" => some (checkCondition true args)
  | "test" => some (checkCondition false args)
  | "alias" | "unalias" => some (refuseAliases name args)
  | "bg" | "fg" => some (fail "No current job")
  | "cd" | "chdir" => some (changeDirectory args)
  | "command" => some (describeCommand args)
  | "echo" => some (printAs name (Format.echo args))
  | "printf" => some (printBy args)
  | "true" => some (setStatus 0)
  | "false" => some (setStatus 1)
  | "getopts" =>
    match args with
    | letters :: target :: words => some do
      let own := (← get).args
      nextOption letters target (if words.isEmpty then own else words)
    | _ => some (fail "usage: getopts optstring var [arg]")
  | "hash" => some (findPrograms args)
  | "jobs" => some (showJobs args)
  | "kill" => some (kill args)
  | "pwd" => some do
    let _ ← takeOptions "LP" "" args
    printAs name ((← get).directory ++ "\n")
  | "read" => some (readVariables args)
  | "type" => some (describeAll true args)
  | "ulimit" => some (showLimit args)
  | "umask" => some (showMask args)
  | "wait" => some (wait args)
  | _ => none

end MutationTesting.Shell.Builtin
