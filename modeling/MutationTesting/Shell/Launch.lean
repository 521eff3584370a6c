import MutationTesting.Shell.Find
import MutationTesting.Shell.Redirection
import MutationTesting.Shell.Rules.Run
import MutationTesting.Shell.Tools

/-!
# Running programs

`launch` runs a program that words name: a tool, another shell, a program that runs further
ones, or a file of the disk that can be run.
-/

namespace MutationTesting.Shell

/-! ### Finding programs -/

/-- What a name is as a program. -/
inductive Program where
  /-- A program of the system. -/
  | system (name : String)
  /-- A file of the disk. -/
  | file (path : String)
  deriving DecidableEq, Repr

/-- The program at a path. -/
def programAt (d : Disk) (path : String) : Except FileError Program :=
  match systemProgram? path with
  | some name =>
    if !isProgramName name then .error .notFound
    else if path.endsWith "/" then .error .notADirectory
    else .ok (.system name)
  | none =>
    match d.find (Text.decode path) with
    | .ok (_, .directory) => .error .permissionDenied
    | .ok (location, .file _) =>
      if d.isProgram location then .ok (.file path) else .error .permissionDenied
    | .error e =>
      if fileKind? d path == some .directory then .error .permissionDenied else .error e

/-- The directories that programs are looked for in. -/
def searchPath (p : Process) : List String :=
  match p.value? "PATH" with
  | some text => (splitAt (· == ':') text.toList).map String.ofList
  | none => programDirectories

/-- The path of a program that is given by a name alone. -/
def programPath? (p : Process) (name : String) : Option String :=
  (searchPath p).findSome? fun directory =>
    let path := if directory.isEmpty then "./" ++ name else pathWithin directory name
    if (programAt p.disk path).toOption.isSome then some path else none

/-- The program that a name or a path is for. -/
def programOf (p : Process) (name : String) : Except FileError Program :=
  if name.toList.contains '/' then programAt p.disk name
  else if name.isEmpty then .error .notFound
  else match programPath? p name with
    | some path => programAt p.disk path
    | none => .error .notFound

/-! ### Running tools -/

/-- Does what came of a run of a tool. -/
def applyResult (r : ToolResult) : Eval Unit := do
  modify fun p => { p with disk := { r.disk with home := p.disk.home } }
  pass r.delay
  printError r.err
  let _ ← emit 1 r.out
  setStatus r.status

/-- The next chunks of a flow that are there at the same time.  The fuel bounds their number. -/
def takeMoment (n : Nat) : Nat → List String → Eval (Option String)
  | 0, texts => return some (String.join texts.reverse)
  | fuel + 1, texts => do
    let next := (← get).flow? n |>.bind (·.chunks.head?)
    match next, texts with
    | some chunk, [] => do
      let _ ← takeChunk n
      takeMoment n fuel [chunk.text]
    | some chunk, texts => do
      if chunk.time ≤ (← get).now then
        let _ ← takeChunk n
        takeMoment n fuel (chunk.text :: texts)
      else return some (String.join texts.reverse)
    | none, [] => takeChunk n
    | none, texts => return some (String.join texts.reverse)

/-- Runs a tool on more and more of a flow, until it has enough.  The fuel bounds the number of
moments at which there is more. -/
def feed (tool : Tool) (c : ToolCall) (n : Nat) : Nat → Eval Unit
  | 0 => applyResult (tool c)
  | fuel + 1 => do
    let r := tool { c with disk := (← get).disk }
    if r.appetite = .satisfied then
      applyResult r
      putBack n r.rest
    else
      let count := (((← get).flow? n).map (·.chunks.length)).getD 0
      match ← takeMoment n (count + 1) [] with
      | some text => feed tool { c with input := c.input ++ text } n fuel
      | none => do
        applyResult (tool { c with disk := (← get).disk })

/-- Prints what is read as soon as it is there.  The fuel bounds the number of chunks. -/
def copyFlow (n : Nat) : Nat → Eval Unit
  | 0 => return
  | fuel + 1 => do
    match ← takeChunk n with
    | some text => do
      let _ ← emit 1 text
      copyFlow n fuel
    | none => return

/-- Runs a tool. -/
def runTool (tool : Tool) (name : String) (args : List String) : Eval Unit := do
  let p ← get
  let input ← inputOf 0
  let flow := (input.bind p.flow?).getD { chunks := [] }
  let call : ToolCall := {
    name := name, args := args, input := "", isFile := flow.isFile, disk := p.disk
    environment := p.environment }
  let r := tool call
  match r.appetite, input with
  | .none, _ | .satisfied, _ | _, none => applyResult r
  | .more, some n => feed tool call n (flow.chunks.length + 2)
  | .all, some n =>
    if name = "cat" && args.all (· == "-") then
      copyFlow n (flow.chunks.length + 2)
      setStatus 0
    else
      let text ← readFlow n
      applyResult (tool { call with input := text, disk := (← get).disk })

/-! ### Running shells -/

/-- What `sh` was asked to do. -/
structure ShellCall where
  options : List Char := []
  /-- Whether the script is an argument. -/
  isText : Bool := false
  fromInput : Bool := false
  words : List String := []

/-- Reads the arguments of `sh`. -/
def ShellCall.read (c : ShellCall) : List String → Except String ShellCall
  | [] => .ok c
  | word :: rest =>
    let turn (on : Bool) (letters : List Char) : ShellCall :=
      let names := letters.filter fun l => l != 'c' && l != 's' && l != 'o'
      { c with
        options := if on then c.options ++ names.filter (!c.options.contains ·)
          else c.options.filter (!names.contains ·)
        isText := c.isText || letters.contains 'c'
        fromInput := c.fromInput || letters.contains 's' }
    let known (letters : List Char) : Option Char :=
      letters.find? fun l => !"aCefnuvxIimqVEbplcso".toList.contains l
    match word.toList with
    | ['-', '-'] | ['-'] => .ok { c with words := rest }
    | '-' :: letters =>
      match known letters, letters.contains 'o', rest with
      | some l, _, _ => .error s!"Illegal option -{l}"
      | none, true, name :: rest =>
        match namedOptions.lookup name with
        | some l => read (turn true (l :: letters)) rest
        | none => .error s!"Illegal option -o {name}"
      | none, _, rest => read (turn true letters) rest
    | '+' :: letters => read (turn false letters) rest
    | _ => .ok { c with words := word :: rest }

/-- The variables that a shell starts with: those of the environment, and its directory. -/
def startBindings (p : Process) : List (String × Binding) :=
  let kept := p.bindings.filter fun (name, b) => b.exported && b.value.isSome
    && name != "PWD" && name != "IFS" && name != "OPTIND"
  kept.map (fun (name, b) => (name, { b with constant := false })) ++ [
    ("PWD", { value := some p.directory, exported := true }), ("OPTIND", { value := some "1" }),
    ("PPID", { value := some (toString p.id) }), ("PS1", { value := some "$ " }),
    ("PS2", { value := some "> " }), ("PS4", { value := some "+ " }),
    ("IFS", { value := some " \t\n" })]

/-- Runs the commands of a text as a shell of its own. -/
def runShellText (run : Runner) (title text : String) (args : List String) (options : List Char) :
    Eval Unit := do
  let own ← get
  let (n, p) := own.nextFresh
  set { p with
    bindings := startBindings own, functions := [], name := title, context := none, args := args
    options := options, traps := own.traps.filter (·.2.isEmpty), id := Process.jobId n, jobs := []
    lastJob := none, loops := 0, calls := 0, locals := [], line := 1, status := 0, nested := false
    shellJob := own.job, saved := none }
  let id := Process.jobId n
  let runAll : Eval (Option Nat) := do
    toEnd run (do let _ ← runText run false text)
    return none
  let ended ← tryCatch runAll fun halt => do
    modify (·.leave own)
    match halt with
    | .killed signal none => return some signal
    | .killed signal (some shell) => if shell = id then return some signal else throw halt
    | halt => throw halt
  modify (·.leave own)
  match ended with
  | none => pure ()
  | some signal => throw (.killed signal none)

/-- Runs the shell as a program. -/
def runShell (run : Runner) (name : String) (args : List String) : Eval Unit := do
  match ShellCall.read {} args with
  | .error text => do
    printError s!"{name}: 0: {text}\n"
    setStatus 2
  | .ok c =>
    if c.isText then
      match c.words with
      | [] => do
        printError s!"{name}: 0: -c requires an argument\n"
        setStatus 2
      | text :: words => runShellText run (words.headD name) text words.tail c.options
    else if c.fromInput || c.words.isEmpty then
      let text ← match ← inputOf 0 with
        | some n => readFlow n
        | none => pure ""
      runShellText run name text c.words c.options
    else
      let file := c.words.headD ""
      match Process.readFile (← get).disk file with
      | .ok text => runShellText run file text c.words.tail c.options
      | .error e => do
        let reason := if e.isAbsence then "No such file" else e.reason
        printError s!"{name}: 0: cannot open {file}: {reason}\n"
        setStatus 2

/-! ### Programs that run programs -/

/-- Runs a program, given how to run one; the words are not empty. -/
abbrev Launcher := List String → Eval Unit

/-- Does something with other variables in the environment, which are as before afterwards. -/
def withBindings (change : Process → Process) (action : Eval Unit) : Eval Unit := do
  let before := (← get).bindings
  modify change
  let restore : Eval Unit := modify fun p => { p with bindings := before }
  tryCatch action fun halt => do
    restore
    throw halt
  restore

/-- Complains that a program could not be run by another one. -/
def refuseIn (name program : String) (e : FileError) : Eval Unit := do
  let start := if ["timeout", "nohup", "stdbuf"].contains name then
      s!"failed to run command '{program}'"
    else if name = "setsid" then s!"failed to execute {program}"
    else s!"'{program}'"
  printError s!"{name}: {start}: {e.reason}\n"
  setStatus (if e.isAbsence then 127 else 126)

/-- Runs a program by another one, which complains if there is none. -/
def launchIn (launch : Launcher) (name : String) (words : List String) : Eval Unit := do
  match programOf (← get) (words.headD "") with
  | .error e => refuseIn name (words.headD "") e
  | .ok _ => launch words

/-- The program `env`: runs a program in another environment, or prints that. -/
def runEnv (launch : Launcher) (clear : Bool) (changes : List (String × Option String)) :
    List String → Eval Unit
  | "-i" :: words | "-" :: words => runEnv launch true changes words
  | "-u" :: name :: words => runEnv launch clear ((name, none) :: changes) words
  | "--" :: words => runEnv launch clear changes words
  | word :: words =>
    match Text.firstSplit? ['='] word.toList with
    | some (name, value) =>
      runEnv launch clear ((String.ofList name, some (String.ofList value)) :: changes) words
    | none => perform (word :: words)
  | [] => perform []
where
  /-- Runs the program in the environment. -/
  perform (words : List String) : Eval Unit := do
    let change (p : Process) : Process :=
      let p := if clear then { p with bindings := p.bindings.map fun (name, b) =>
          (name, { b with exported := false }) } else p
      changes.reverse.foldl (fun p (name, value) =>
        p.bind name (value.map fun v => { value := some v, exported := true })) p
    withBindings change do
      if words.isEmpty then
        let _ ← emit 1 (environmentText (← get).environment)
        setStatus 0
      else launchIn launch "env" words

/-- The program `timeout`: runs a program for so long at most. -/
def runTimeout (launch : Launcher) (args : List String) : Eval Unit := do
  match Options.read { plain := "vfp", valued := "sk", strict := true, long := [
      ("signal", 's'), ("kill-after", 'k'), ("preserve-status", 'p'), ("foreground", 'f'),
      ("verbose", 'v')] } args with
  | .error text => do
    printError s!"timeout: {text}\nTry 'timeout --help' for more information.\n"
    setStatus 125
  | .ok o =>
    match o.operands with
    | time :: program :: rest =>
      match sleepTime? time with
      | none => do
        printError (s!"timeout: invalid time interval '{time}'\n"
          ++ "Try 'timeout --help' for more information.\n")
        setStatus 125
      | some limit =>
        let before ← get
        let words := program :: rest
        if limit = 0 then launchIn launch "timeout" words
        else
          let stop := before.now + limit
          set { before with horizon := min before.horizon stop }
          tryCatch (do
            launchIn launch "timeout" words
            modify fun p => { p with horizon := before.horizon }) fun
            | .late => do
              let p ← get
              set { p.leave before with
                horizon := before.horizon, steps := before.steps, now := min p.now stop }
              passUntil stop
              let signal := ((o.value? 's').bind Signal.ofText?).getD ⟨15, "TERM", ""⟩
              if o.has 'v' then
                printError s!"timeout: sending signal {signal.name} to command '{program}'\n"
              if signal.number = 9 then throw (.killed 9 none)
              else setStatus (if o.has 'p' then 128 + signal.number else 124)
            | halt => do
              modify fun p => { p with horizon := before.horizon }
              throw halt
    | [_] | [] => do
      printError "Try 'timeout --help' for more information.\n"
      setStatus 125

/-- The arguments that a text holds, parted at blanks that are not quoted.  The fuel bounds the
number of characters. -/
def inputWords : Nat → Option (List Char) → Option Char → List Char → List String
  | 0, current, _, _ | _, current, _, [] =>
    (current.map fun cs => String.ofList cs.reverse).toList
  | fuel + 1, current, quote, c :: cs =>
    match quote with
    | some q =>
      if c == q then inputWords fuel (some (current.getD [])) none cs
      else inputWords fuel (some (c :: current.getD [])) quote cs
    | none =>
      if c == '\x27' || c == '"' then inputWords fuel (some (current.getD [])) (some c) cs
      else if c == '\\' then
        match cs with
        | d :: cs => inputWords fuel (some (d :: current.getD [])) none cs
        | [] => inputWords fuel current none []
      else if c == ' ' || c == '\t' || c == '\n' then
        (current.map fun cs => String.ofList cs.reverse).toList ++ inputWords fuel none none cs
      else inputWords fuel (some (c :: current.getD [])) none cs

/-- Lists of so many words at most; the fuel bounds the number of lists. -/
def inBatches (count : Nat) : Nat → List String → List (List String)
  | 0, _ | _, [] => []
  | fuel + 1, words => words.take count :: inBatches count fuel (words.drop count)

/-- The program `xargs`: runs a program with arguments that it reads. -/
def runXargs (launch : Launcher) (args : List String) : Eval Unit := do
  let table : OptionTable := { plain := "0rtpx", valued := "nILPdsEae", strict := true, long := [
    ("null", '0'), ("no-run-if-empty", 'r'), ("max-args", 'n'), ("replace", 'I'),
    ("max-lines", 'L'), ("max-procs", 'P'), ("delimiter", 'd'), ("verbose", 't')] }
  match Options.read table args with
  | .error text => do
    printError s!"xargs: {text}\nTry 'xargs --help' for more information.\n"
    setStatus 1
  | .ok o =>
    let text ← match o.value? 'a', ← inputOf 0 with
      | some path, _ => pure ((Process.readFile (← get).disk path).toOption.getD "")
      | none, some n => readFlow n
      | none, none => pure ""
    let parted (mark : Char) : List String :=
      let parts := (splitAt (· == mark) text.toList).map String.ofList
      if parts.getLast? = some "" then parts.dropLast else parts
    let delimiter := (o.value? 'd').map fun s => ((Format.unescaped s).1.toList).headD '\n'
    let items : List String := if o.has '0' then parted '\x00'
      else match delimiter with
        | some mark => parted mark
        | none =>
          if o.has 'I' || o.has 'L' then
            (linesOf text).map (fun line => String.ofList (line.toList.dropWhile Editor.isBlank))
              |>.filter (!·.isEmpty)
          else inputWords (text.length + 1) none none text.toList
    let base : List String := if o.operands.isEmpty then ["echo"] else o.operands
    let number (c : Char) : Option Nat := (o.value? c).bind fun s => Text.digits? s.toList
    let calls : List (List String) := match o.value? 'I' with
      | some mark => items.map fun item => base.map fun (w : String) => w.replace mark item
      | none =>
        let size := ((number 'n').or (number 'L')).getD 5000
        let batches := inBatches (max size 1) (items.length + 1) items
        let batches := if batches.isEmpty && !(o.has 'r') then [[]] else batches
        let batches := if o.has 'L' then
            batches.map fun (lines : List String) => lines.flatMap fun (line : String) =>
              inputWords (line.length + 1) none none line.toList
          else batches
        batches.map (base ++ ·)
    let before ← get
    let (n, p) := before.openFlow { chunks := [] }
    set (p.setHandle 0 (some (.input n)))
    let mut status := 0
    for words in calls do
      let program := words.headD ""
      if status ≠ 124 && status ≠ 126 && status ≠ 127 then
        if o.has 't' then printError (" ".intercalate words ++ "\n")
        match programOf (← get) program with
        | .error e => do
          printError s!"xargs: {program}: {e.reason}\n"
          status := if e.isAbsence then 127 else 126
        | .ok _ => do
          launch words
          let s := (← get).status
          if s = 255 then
            printError s!"xargs: {program}: exited with status 255; aborting\n"
            status := 124
          else if 125 < s then
            status := 125
          else if s ≠ 0 then status := 123
    modify fun p => { p with handles := before.handles }
    setStatus status

/-- The program `awk`: lets rules work on records. -/
def runAwk (run : Runner) (name : String) (assigned : List (String × String))
    (text : Option String) : List String → Eval Unit
  | "-F" :: separator :: args => runAwk run name (assigned ++ [("FS", separator)]) text args
  | "-v" :: pair :: args => runAwk run name (assigned ++ pairOf pair) text args
  | "-f" :: path :: args => do
    match Process.readFile (← get).disk path with
    | .ok more => runAwk run name assigned (some (text.getD "" ++ more)) args
    | .error e => do
      printError s!"{name}: cannot open \"{path}\" ({e.reason})\n"
      setStatus 2
  | "--" :: args => start args
  | arg :: args =>
    match arg.toList with
    | '-' :: 'F' :: cs => runAwk run name (assigned ++ [("FS", String.ofList cs)]) text args
    | '-' :: 'v' :: cs => runAwk run name (assigned ++ pairOf (String.ofList cs)) text args
    | _ => start (arg :: args)
  | [] => start []
where
  /-- A name and a value with an equality sign between them. -/
  pairOf (pair : String) : List (String × String) :=
    match Text.firstSplit? ['='] pair.toList with
    | some (name, value) => [(String.ofList name, String.ofList value)]
    | none => []
  /-- Reads the program, unless files held it, and starts it. -/
  start (args : List String) : Eval Unit := do
    let parts := match text, args with
      | some text, args => some (text, args)
      | none, text :: args => some (text, args)
      | none, [] => none
    match parts with
    | none => do
      printError s!"usage: {name} [Options] [Program] [file ...]\n"
      setStatus 2
    | some (text, args) =>
      match Rules.Program.read? text with
      | .error flaw => do
        printError s!"{name}: line {flaw.line}: {flaw.reason}\n"
        setStatus 2
      | .ok program =>
        let command : Rules.RunCommand := fun text input wantsOutput => do
          let before := (← get).handles
          match input with
          | some text => readFrom 0 text false
          | none => pure ()
          let action := runShellText run "sh" text [] []
          let out ← if wantsOutput then rawOutput run action
            else do
              action
              pure ""
          modify fun p => { p with handles := before }
          return out
        let environment := (← get).environment
        Rules.run command { name := name, assigned := assigned, args := args
                            environment := environment } program

/-- The program `which`: prints the paths of programs. -/
def runWhich (names : List String) : Eval Unit := do
  let p ← get
  let names := names.filter (!·.startsWith "-")
  let paths := names.map fun name =>
    if name.toList.contains '/' then
      if (programAt p.disk name).toOption.isSome then some name else none
    else programPath? p name
  let _ ← emit 1 (unlines (paths.filterMap fun path => path))
  setStatus (if names.isEmpty || paths.any Option.isNone then 1 else 0)

/-! ### Programs -/

/-- The interpreter that the first line of a script names, with its argument. -/
def interpreter? (text : String) : Option (List String) :=
  match text.toList with
  | '#' :: '!' :: cs =>
    let line := cs.takeWhile (· != '\n')
    let words := (splitAt Editor.isBlank line).filter (!·.isEmpty) |>.map String.ofList
    match words with
    | [] => none
    | program :: rest => some (program :: if rest.isEmpty then [] else [" ".intercalate rest])
  | _ => none

/-- Runs a program.  The fuel bounds how many programs run one another. -/
def launch (run : Runner) : Nat → Launcher
  | 0, _ => throw .late
  | fuel + 1, words => do
    let name := words.headD ""
    let args := words.tail
    let again := launch run fuel
    match programOf (← get) name with
    | .error e => do
      let reason := if e.isAbsence then "not found" else e.reason
      complain s!"{name}: {reason}"
      setStatus (if e.isAbsence then 127 else 126)
    | .ok (.file path) =>
      let text := ((Process.readFile (← get).disk path).toOption).getD ""
      match interpreter? text with
      | some interpreter =>
        match programOf (← get) (interpreter.headD "") with
        | .ok _ => again (interpreter ++ path :: args)
        | .error _ => do
          complain s!"{name}: not found"
          setStatus 127
      | none => runShellText run path text args []
    | .ok (.system program) =>
      match tool? program with
      | some tool => runTool tool (lastName name) args
      | none =>
        if shells.contains program then runShell run name args
        else match program with
          | "env" => runEnv again false [] args
          | "xargs" => runXargs again args
          | "timeout" => runTimeout again args
          | "find" => Find.run again args
          | "awk" | "mawk" => runAwk run (lastName name) [] none args
          | "which" => runWhich args
          | "nice" =>
            let rest := if args.head? = some "-n" then args.drop 2
              else args.dropWhile (·.startsWith "-")
            launchIn again "nice" rest
          | "stdbuf" => launchIn again "stdbuf" (args.dropWhile (·.startsWith "-"))
          | "setsid" => launchIn again "setsid" (args.dropWhile (·.startsWith "-"))
          | _ =>
            if args.isEmpty then
              printError "nohup: missing operand\nTry 'nohup --help' for more information.\n"
              setStatus 125
            else launchIn again "nohup" args

/-- How many programs run one another. -/
def maxLaunchDepth : Nat := 50

end MutationTesting.Shell
