import MutationTesting.Shell.Builtin

/-!
# Running commands

`run` runs a command.  A command that consists of words is one of the shell, a function or a
program; what it consists of else says which commands run, and how often.
-/

namespace MutationTesting.Shell

section

variable (run : Runner)

/-- Ends the shell if a failure is to end it. -/
def checkStatus (tested : Bool) : Eval Unit := do
  let p ← get
  if p.status ≠ 0 && !tested && p.hasOption 'e' then throw (.exit p.status)

/-! ### Words -/

/-- What follows the word `command` and its option, if that is to be run. -/
def afterCommand : List String → Option (List String)
  | [] => none
  | "--" :: words => if words.isEmpty then none else some words
  | word :: words =>
    match word.toList with
    | '-' :: c :: cs => if (c :: cs).all (· == 'p') then afterCommand words else none
    | _ => some (word :: words)

/-- The words that are to be run, and whether `command` before them says that they are for no
function.  The fuel bounds their number. -/
def meant : Nat → List String → Bool × List String
  | fuel + 1, "command" :: rest =>
    match afterCommand rest with
    | some words => (true, (meant fuel words).2)
    | none => (false, "command" :: rest)
  | _, words => (false, words)

/-- The fields of words, given those before them, the last first.  Words that assign are not
parted after a command that takes assignments. -/
def expandFrom (before : List String) : List Word → Eval (List String)
  | [] => return before.reverse
  | word :: words => do
    let name := (meant before.length before.reverse).2.headD ""
    let assigned :=
      if ["export", "readonly", "local", "alias"].contains name then Reading.assignment? word
      else none
    match assigned with
    | some (name, value) => do
      let text ← expandText run value
      expandFrom (s!"{name}={text}" :: before) words
    | none => do
      let fields ← expandWord run word
      expandFrom (fields.reverse ++ before) words

/-- Expands values, and gives each to its variable in some way. -/
def assignAll (give : String → String → Eval Unit) (assignments : List (String × Word)) :
    Eval (List String) :=
  assignments.mapM fun (name, word) => do
    let value ← expandText run word
    give name value
    return s!"{name}={value}"

/-! ### What words are for -/

/-- Does something of which an error ends no more than that. -/
def forgiving (action : Eval Unit) : Eval Unit :=
  tryCatch action fun
    | .flaw status => setStatus status
    | halt => throw halt

/-- The number of functions that a command may be inside of. -/
def maxCalls : Nat := 1000

/-- Runs a function. -/
def call (tested : Bool) (body : Command) (args : List String) : Eval Unit := do
  let before ← get
  if maxCalls ≤ before.calls then
    fail s!"Maximum function recursion depth ({maxCalls}) reached"
  let restore : Eval Unit := modify fun p =>
    { p with
      args := before.args, loops := before.loops, option := before.option, calls := before.calls }
  set { before with args := args, loops := 0, option := (1, 0), calls := before.calls + 1 }
  tryCatch (run tested body) fun
    | .back status => setStatus status
    | halt => do
      restore
      throw halt
  restore

/-- Runs a program; if a signal ends it, that is said. -/
def runProgram (words : List String) : Eval Unit :=
  tryCatch (launch run maxLaunchDepth words) fun
    | .killed signal none => do
      printObituary signal
      setStatus (128 + signal)
    | halt => throw halt

/-- Runs what words are for; `direct` says that this is no function, and `strict` that an error
of a special command ends the shell. -/
def perform (tested direct strict : Bool) (words : List String) : Eval Unit := do
  let name := words.headD ""
  let args := words.tail
  match Builtin.special? run (launch run maxLaunchDepth) tested name args with
  | some action =>
    if strict then withContext name action else forgiving (withContext name action)
  | none =>
    let p ← get
    match if direct then none else p.functions.lookup name with
    | some body => withLocals (call run tested body args)
    | none =>
      match Builtin.plain? name args with
      | some action => forgiving (withContext name action)
      | none => runProgram run words

/-- Runs a command of assignments, words and redirections. -/
def runSimple (tested : Bool) (assignments : List (String × Word)) (words : List Word)
    (redirects : List Redirect) : Eval Unit := do
  modify fun p => { p with taken := none }
  let words ← expandFrom run [] words
  let before ← get
  let (direct, target) := meant words.length words
  let name := target.headD ""
  let strict := !direct && specialNames.contains name
  let trace (assigned : List String) : Eval Unit := do
    if before.hasOption 'x' then
      match before.handle? 2 with
      | some (.output sink) =>
        emitTo sink ((before.value? "PS4").getD "" ++ " ".intercalate (assigned ++ words) ++ "\n")
      | _ => pure ()
  let body : Eval Unit := do
    if target.isEmpty then
      trace (← assignAll run assign assignments)
      setStatus ((← get).taken.getD 0)
    else if strict then
      trace (← assignAll run assign assignments)
      perform run tested direct strict target
    else if assignments.isEmpty then
      trace []
      perform run tested direct strict target
    else withLocals do
      trace (← assignAll run assignLocal assignments)
      perform run tested direct strict target
  let prepared : Eval Unit := do
    if ← redirected? run redirects then body
    else if strict then throw (.flaw 2)
  if name = "exec" then prepared else restoring redirects prepared

/-! ### Loops -/

/-- How a round of a loop has gone. -/
inductive Round where
  | whole
  /-- It was left for the next one. -/
  | cut
  /-- The loop was left. -/
  | left
  deriving DecidableEq, Repr

/-- Does something that loops may be left from. -/
def inRound (action : Eval Unit) : Eval Round :=
  tryCatch (do action; return .whole) fun
    | .leave n => if n ≤ 1 then return .left else throw (.leave (n - 1))
    | .next n => if n ≤ 1 then return .cut else throw (.next (n - 1))
    | halt => throw halt

/-- Does something inside of one more loop. -/
def inLoop (action : Eval Unit) : Eval Unit := do
  let loops := (← get).loops
  let restore : Eval Unit := modify fun p => { p with loops := loops }
  modify fun p => { p with loops := loops + 1 }
  tryCatch action fun halt => do
    restore
    throw halt
  restore

/-- Runs the rounds of a loop with a test; `status` is that of the last round.  The fuel bounds
the number of rounds. -/
def roundsWhile (tested zero : Bool) (test body : List Command) : Nat → Nat → Eval Unit
  | 0, _ => throw .late
  | fuel + 1, status => do
    match ← inRound (runAll run true test) with
    | .left => setStatus status
    | .cut => roundsWhile tested zero test body fuel status
    | .whole =>
      if ((← get).status == 0) == zero then
        match ← inRound (runAll run tested body) with
        | .left => pure ()
        | _ => roundsWhile tested zero test body fuel (← get).status
      else setStatus status

/-- Runs the rounds of a loop over values; `status` is that of the last round. -/
def roundsOver (tested : Bool) (name : String) (body : List Command) :
    Nat → List String → Eval Unit
  | status, [] => setStatus status
  | _, value :: values => do
    assign name value
    match ← inRound (runAll run tested body) with
    | .left => pure ()
    | _ => roundsOver tested name body (← get).status values

/-- The commands of the first branch with a pattern for a text. -/
def branchFor (text : String) : List (List Word × List Command) → Eval (Option (List Command))
  | [] => return none
  | (patterns, body) :: branches => do
    let isMatch ← patterns.anyM fun pattern => do
      return (← expandPattern run pattern).isMatch text
    if isMatch then return some body else branchFor text branches

end

/-! ### Commands -/

/-- How deep commands may be inside of one another. -/
def maxNesting : Nat := 10000

/-- Runs a command.  `tested` says that its status is asked for, so that a failure is none.
The fuel bounds the depth of commands inside of one another; where that ends, so does the shell
as one that has no room left. -/
def run : Nat → Runner
  | 0, _, _ => throw (.killed 11 none)
  | depth + 1, tested, command => do
    let run := run depth
    let note (line : Nat) : Eval Unit := modify fun p => { p with line := line }
    tick
    if (← get).hasOption 'n' then return
    match command with
    | .simple line assignments words redirects => do
      note line
      runSimple run tested assignments words redirects
      checkStatus tested
    | .pipeline stages => do
      pipeline run tested stages
      checkStatus tested
    | .negation command => do
      run true command
      setStatus (if (← get).status = 0 then 1 else 0)
    | .both first second => do
      run true first
      if (← get).status = 0 then run tested second
    | .either first second => do
      run true first
      if (← get).status ≠ 0 then run tested second
    | .background command => background run command
    | .conditional test body otherwise => do
      runAll run true test
      runAll run tested (if (← get).status = 0 then body else otherwise)
    | .loop zero test body => inLoop (roundsWhile run tested zero test body maxSteps 0)
    | .each line name words body => do
      note line
      let values ← expandWords run words
      inLoop (roundsOver run tested name body 0 values)
    | .choice line word branches => do
      note line
      let text ← expandText run word
      runAll run tested ((← branchFor run text branches).getD [])
    | .subshell line body redirects => do
      note line
      isolated run false do
        redirect run redirects
        runAll run tested body
      checkStatus tested
    | .group line body redirects => do
      if !redirects.isEmpty then note line
      withRedirects run redirects (runAll run tested body)
    | .define _ name body => modify fun p =>
      { p with functions := (name, body) :: p.functions.filter (·.1 != name), status := 0 }
    runTraps run 100

end MutationTesting.Shell
