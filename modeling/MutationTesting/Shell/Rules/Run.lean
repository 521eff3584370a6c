import MutationTesting.Shell.Rules.Reading
import MutationTesting.Shell.Rules.State

/-!
# Rules at work

`Rules.run` lets a program work on records.  Expressions and statements run by `Runners.next`,
given a way to run those inside of them.
-/

namespace MutationTesting.Shell.Rules

open Text (Regex)

/-- Ways to run expressions and statements. -/
structure Runners where
  eval : Expr → Work Value
  exec : List Statement → Work Unit

namespace Work

/-- The key of an element with so many indices. -/
def keyOf (values : List Value) : Work String := do
  match values with
  | [v] =>
    match v with
    | .number f =>
      match whole? f with
      | some n => return toString n
      | none => textOf v
    | v => textOf v
  | values => do
    let separator ← textOf (← global "SUBSEP")
    return separator.intercalate (← values.mapM textOf)

/-- Gives a target a value. -/
def assign (r : Runners) (target : Expr) (v : Value) : Work Unit := do
  match target with
  | .name name => writeName name v
  | .field index => do setField (truncated (← r.eval index).toFloat) v
  | .element array index => do
    let key ← keyOf (← index.mapM r.eval)
    setElement (← arrayOf array) key v
  | _ => return

/-- The value of an operator; a division by zero ends the run. -/
def compute (op : Operator) (a b : Float) : Work Float := do
  match op with
  | .plus => return a + b
  | .minus => return a - b
  | .times => return a * b
  | .power => return Float.pow a b
  | .quotient => if b == 0 then broken "division by zero" else return a / b
  | .modulo =>
    if b == 0 then broken "division by zero in %"
    else
      let q := a / b
      let q := if q < 0 then -((-q).floor) else q.floor
      return a - q * b

/-- The program that an expression stands for as a pattern. -/
def patternOf (r : Runners) (e : Expr) : Work Regex.Program := do
  match e with
  | .regex p => return p
  | e => do programOf (← textOf (← r.eval e))

/-! ### Files and commands -/

section

variable (command : RunCommand)

/-- Prints a text to somewhere. -/
def output (r : Runners) (place : Destination) (text : String) : Work Unit := do
  match place with
  | .output => do
    let _ ← ofEval (emit 1 text)
  | .command e => do
    let name ← textOf (← r.eval e)
    modify fun s =>
      if (s.pipes.lookup name).isSome then
        { s with
          pipes := s.pipes.map fun (n, texts) => (n, if n == name then text :: texts else texts) }
      else { s with pipes := s.pipes ++ [(name, [text])] }
  | .file e append => do
    let path ← textOf (← r.eval e)
    if path = "/dev/stdout" || path = "-" then
      let _ ← ofEval (emit 1 text)
    else if path = "/dev/stderr" then
      let _ ← ofEval (emit 2 text)
    else if path = "/dev/null" then return
    else
      let p ← ofEval get
      let isOpen := (← get).written.contains path || append
      let before := if isOpen then (Process.readFile p.disk path).toOption.getD "" else ""
      match Process.writeFile p.disk path (before ++ text) with
      | .ok disk => do
        ofEval (modify fun p => { p with disk := disk })
        modify fun s => { s with written := path :: s.written }
      | .error _ => broken s!"cannot open \"{path}\" for output"

/-- Runs the commands that texts were printed to, all or that with a name. -/
def closePipes (name : Option String) : Work Unit := do
  let (closing, others) := (← get).pipes.partition fun (n, _) => name.all (· == n)
  modify fun s => { s with pipes := others }
  for (n, texts) in closing do
    let _ ← ofEval (command n (some (String.join texts.reverse)) false)

/-- Reads a line of a reader, which is opened first if need be. -/
def readLine (key : String) (source : Work (Option (List Char))) :
    Work (Option (Option String)) := do
  let found := (← get).readers.find? (·.key == key)
  let text ← match found with
    | some reader => pure (some reader.rest)
    | none => source
  match text with
  | none => return none
  | some cs =>
    let keep (rest : List Char) : Work Unit := modify fun s =>
      { s with readers := ⟨key, rest⟩ :: s.readers.filter (·.key != key) }
    match ← nextRecord cs with
    | none => do
      keep []
      return some none
    | some (line, rest) => do
      keep rest
      return some (some line)

/-- Puts a line that was read into a target, or into the record. -/
def store (r : Runners) (target : Option Expr) (line : String) : Work Unit := do
  match target with
  | some t => assign r t (.ofInput line)
  | none => setRecord line

/-- Reads a line into a target, or into the record. -/
def getline (r : Runners) (target : Option Expr) (source : LineSource) : Work Value := do
  let line ← match source with
    | .records => do pure (some (← readRecord 10000))
    | .file e => do
      let path ← textOf (← r.eval e)
      readLine ("<" ++ path) (openFile path)
    | .command e => do
      let text ← textOf (← r.eval e)
      readLine ("|" ++ text) do return some (← ofEval (command text none true)).toList
  match line with
  | none => return .number (-1)
  | some none => return .number 0
  | some (some line) => do
    store r target line
    if source matches .command _ then
      setGlobal "NR" (.number ((← global "NR").toFloat + 1))
    return .number 1

/-! ### Built-in functions -/

/-- A part of a text from a place on, and so many characters long if that is given. -/
def substring (s : String) (start : Float) (length : Option Float) : String :=
  let round (f : Float) : Float := (f + 0.5).floor
  let first := round start
  let last := match length with
    | some n => round (start + n)
    | none => s.length.toFloat + 1
  let low := max 1 (truncated first)
  let high := min (s.length + 1 : Int) (truncated last)
  if first.isNaN || last.isNaN || high ≤ low then ""
  else String.ofList ((s.toList.drop (low - 1).toNat).take (high - low).toNat)

/-- Replaces in a target what matches a pattern. -/
def substituteIn (r : Runners) (all : Bool) (pattern text : Expr) (target : Expr) : Work Value := do
  let p ← patternOf r pattern
  let replacement ← textOf (← r.eval text)
  let subject ← textOf (← r.eval target)
  let cs := subject.toList
  let (changed, n) := replaceMatches p replacement.toList all cs (cs.length + 2) 0 none
  if 0 < n then assign r target (.text (String.ofList changed))
  return .ofNat n

/-- Calls a built-in function. -/
def builtin (r : Runners) (name : String) (args : List Expr) : Work Value := do
  let number (f : Float → Float) : Work Value := do
    match args with
    | e :: _ => return .number (f (← r.eval e).toFloat)
    | [] => return .number (f 0)
  let changed (f : Char → Char) : Work Value := do
    match args with
    | e :: _ => return .text (String.ofList ((← textOf (← r.eval e)).toList.map f))
    | [] => return .text ""
  match name, args with
  | "length", [] => return .ofNat (← get).record.length
  | "length", [.name n] =>
    match ← cell? n with
    | some (.array i) => return .ofNat (← table i).length
    | _ => return .ofNat (← textOf (← r.eval (.name n))).length
  | "length", e :: _ => return .ofNat (← textOf (← r.eval e)).length
  | "substr", [s, m] => do
    let text ← textOf (← r.eval s)
    return .text (substring text (← r.eval m).toFloat none)
  | "substr", s :: m :: n :: _ => do
    let text ← textOf (← r.eval s)
    let start := (← r.eval m).toFloat
    return .text (substring text start (some (← r.eval n).toFloat))
  | "index", s :: t :: _ => do
    let text := (← textOf (← r.eval s)).toList
    let needle := (← textOf (← r.eval t)).toList
    match Text.firstSplit? needle text with
    | some (before, _) => return .ofNat (before.length + 1)
    | none => return .number 0
  | "split", s :: .name array :: rest => do
    let text ← textOf (← r.eval s)
    let parts ← match rest with
      | .regex p :: _ =>
        pure (if text.isEmpty then [] else splitByRegex p text.toList (text.length + 1) 0)
      | e :: _ => do splitBy (← textOf (← r.eval e)) text
      | [] => do splitBy (← textOf (← global "FS")) text
    let n ← arrayOf array
    setTable n (parts.zipIdx.map fun (part, i) => (toString (i + 1), Value.ofInput part))
    return .ofNat parts.length
  | "sub", [p, t] => substituteIn r false p t (.field (.number 0))
  | "sub", p :: t :: target :: _ => substituteIn r false p t target
  | "gsub", [p, t] => substituteIn r true p t (.field (.number 0))
  | "gsub", p :: t :: target :: _ => substituteIn r true p t target
  | "match", s :: e :: _ => do
    let text := (← textOf (← r.eval s)).toList
    let p ← patternOf r e
    let (start, length) : Nat × Float := match Regex.search? p text 0 with
      | some m => (m.start + 1, (m.stop - m.start).toFloat)
      | none => (0, -1)
    setGlobal "RSTART" (.ofNat start)
    setGlobal "RLENGTH" (.number length)
    return .ofNat start
  | "sprintf", e :: rest => do
    let format ← textOf (← r.eval e)
    let values ← rest.mapM r.eval
    return .text (Value.format (← convert) format values)
  | "int", _ => number fun f => if f < 0 then -((-f).floor) else f.floor
  | "sqrt", _ => number Float.sqrt
  | "exp", _ => number Float.exp
  | "log", _ => number Float.log
  | "sin", _ => number Float.sin
  | "cos", _ => number Float.cos
  | "atan2", y :: x :: _ => do
    let a := (← r.eval y).toFloat
    return .number (Float.atan2 a (← r.eval x).toFloat)
  | "rand", _ => return .number 0.5
  | "srand", _ => return .number 0
  | "systime", _ => return .number 1700000000
  | "tolower", _ => changed Char.toLower
  | "toupper", _ => changed Char.toUpper
  | "system", e :: _ => do
    let text ← textOf (← r.eval e)
    let _ ← ofEval (command text none false)
    return .ofNat (← ofEval get).status
  | "close", e :: _ => do
    let key ← textOf (← r.eval e)
    closePipes command (some key)
    let s ← get
    let wasOpen := s.written.contains key
      || s.readers.any fun reader => reader.key == "<" ++ key || reader.key == "|" ++ key
    set { s with
      written := s.written.filter (· != key)
      readers := s.readers.filter fun reader =>
        reader.key != "<" ++ key && reader.key != "|" ++ key }
    return .number (if wasOpen then 0 else -1)
  | "fflush", _ => return .number 0
  | name, _ => broken s!"wrong number of arguments in call to {name}"

/-! ### Expressions -/

/-- Calls a function of the program. -/
def call (functions : List Function) (r : Runners) (name : String) (args : List Expr) :
    Work Value := do
  match functions.find? (·.name == name) with
  | none => broken s!"function {name} never defined"
  | some f =>
    let cells ← args.mapM fun e => do
      match e with
      | .name n =>
        match ← cell? n with
        | some (.array i) => return Cell.array i
        | some (.value .unset) | none =>
          if n = "NF" then return Cell.value (← r.eval e)
          -- the function may use it as an array
          else return Cell.array (← arrayOf n)
        | some c => return c
      | e => return Cell.value (← r.eval e)
    let missing := f.params.length - cells.length
    let before := (← get).locals
    modify fun s => { s with
      locals := f.params.zip (cells ++ List.replicate missing (Cell.value .unset)) }
    let value ← tryCatch (do r.exec f.body; return Value.unset) fun
      | .back v => return v
      | other => do
        modify fun s => { s with locals := before }
        throw other
    modify fun s => { s with locals := before }
    return value

/-- The value of an expression. -/
def eval (functions : List Function) (r : Runners) : Expr → Work Value
  | .number f => return .number f
  | .text s => return .text s
  | .regex p => do return .ofBool (Regex.occursIn p (← get).record.toList)
  | .field index => do field (truncated (← r.eval index).toFloat)
  | .name name => readName name
  | .element array index => do
    let key ← keyOf (← index.mapM r.eval)
    element (← arrayOf array) key
  | .assign op target value => do
    match op with
    | none => do
      let v ← r.eval value
      assign r target v
      return v
    | some op => do
      let b := (← r.eval value).toFloat
      let a := (← r.eval target).toFloat
      let v := Value.number (← compute op a b)
      assign r target v
      return v
  | .choice test yes no => do if (← r.eval test).isTrue then r.eval yes else r.eval no
  | .either a b => do
    if (← r.eval a).isTrue then return .number 1 else return .ofBool (← r.eval b).isTrue
  | .both a b => do
    if (← r.eval a).isTrue then return .ofBool (← r.eval b).isTrue else return .number 0
  | .matches negated subject pattern => do
    let text ← textOf (← r.eval subject)
    let p ← patternOf r pattern
    return .ofBool (Regex.occursIn p text.toList != negated)
  | .isIn index array => do
    let key ← keyOf (← index.mapM r.eval)
    return .ofBool ((← table (← arrayOf array)).lookup key).isSome
  | .compare k a b => do
    let x ← r.eval a
    let y ← r.eval b
    return .ofBool (Value.compare (← convert) k x y)
  | .concat a b => do
    let x ← textOf (← r.eval a)
    return .text (x ++ (← textOf (← r.eval b)))
  | .compute op a b => do
    let x := (← r.eval a).toFloat
    return .number (← compute op x (← r.eval b).toFloat)
  | .negate a => do return .number (-(← r.eval a).toFloat)
  | .numeric a => do return .number (← r.eval a).toFloat
  | .not a => do return .ofBool !(← r.eval a).isTrue
  | .step before delta target => do
    let old := (← r.eval target).toFloat
    assign r target (.number (old + delta))
    return .number (if before then old + delta else old)
  | .call name args => call functions r name args
  | .builtin name args => builtin command r name args
  | .getline target source => getline command r target source

/-! ### Statements -/

/-- Runs the rounds of a loop.  The fuel bounds their number. -/
def rounds (test : Work Bool) (body step : Work Unit) : Nat → Work Unit
  | 0 => return
  | fuel + 1 => do
    if ← test then
      ofEval tick
      let goesOn ← tryCatch (do body; return true) fun
        | .leave => return false
        | .again => return true
        | other => throw other
      if goesOn then
        step
        rounds test body step fuel

/-- The most rounds that a loop has. -/
def maxRounds : Nat := 1000000

/-- Runs a statement. -/
def exec (r : Runners) (s : Statement) : Work Unit := do
  ofEval tick
  match s with
  | .expr e => do
    let _ ← r.eval e
  | .print args place => do
    let text ← if args.isEmpty then pure (← get).record
      else do
        let format ← textOf (← global "OFMT")
        let texts ← args.mapM fun e => return (← r.eval e).toText format
        pure ((← textOf (← global "OFS")).intercalate texts)
    output r place (text ++ (← textOf (← global "ORS")))
  | .printf args place => do
    match ← args.mapM r.eval with
    | [] => return
    | format :: values => do
      output r place (Value.format (← convert) (← textOf format) values)
  | .conditional test yes no => do
    if (← r.eval test).isTrue then r.exec yes else r.exec no
  | .loop test body =>
    rounds (do return (← r.eval test).isTrue) (r.exec body) (return) maxRounds
  | .repeating body test => do
    let goesOn ← tryCatch (do r.exec body; return true) fun
      | .leave => return false
      | .again => return true
      | other => throw other
    if goesOn then
      rounds (do return (← r.eval test).isTrue) (r.exec body) (return) maxRounds
  | .counting start test step body => do
    r.exec start.toList
    rounds (match test with
      | some e => do return (← r.eval e).isTrue
      | none => return true) (r.exec body) (r.exec step.toList) maxRounds
  | .each name array body => do
    let keys := keysOf (← table (← arrayOf array))
    let leave ← keys.foldlM (fun (isOver : Bool) key => do
      if isOver then return true
      else
        ofEval tick
        writeName name (.ofInput key)
        tryCatch (do r.exec body; return false) fun
          | .leave => return true
          | .again => return false
          | other => throw other) false
    if leave then return
  | .block body => r.exec body
  | .next => throw .next
  | .exit status => do
    match status with
    | some e => do
      let v ← r.eval e
      modify fun s => { s with status := (Int.emod (truncated v.toFloat) 256).toNat }
    | none => pure ()
    throw .exit
  | .back value => do
    match value with
    | some e => do throw (.back (← r.eval e))
    | none => throw (.back .unset)
  | .leave => throw .leave
  | .again => throw .again
  | .delete array index => do
    let key ← keyOf (← index.mapM r.eval)
    let n ← arrayOf array
    setTable n ((← table n).filter (·.1 != key))
  | .deleteAll array => do setTable (← arrayOf array) []

/-- Ways to run what is nested less than so deep. -/
def runners (functions : List Function) : Nat → Runners
  | 0 => ⟨fun _ => broken "function call nesting too deep", fun _ => return⟩
  | depth + 1 =>
    let r := runners functions depth
    ⟨eval command functions r, fun body => body.forM (exec r)⟩

/-! ### Rules -/

/-- Runs the rules for a record. -/
def forRecord (r : Runners) (rules : List Rule) : Work Unit := do
  let act (rule : Rule) : Work Unit :=
    match rule.action with
    | some body => r.exec body
    | none => r.exec [.print [] .output]
  for (rule, i) in rules.zipIdx do
    match rule.pattern with
    | .start | .stop => pure ()
    | .always => act rule
    | .test e => do if (← r.eval e).isTrue then act rule
    | .range first last => do
      let isOpen := (← get).ranges.contains i
      let applies ← if isOpen then pure true else pure (← r.eval first).isTrue
      if applies then
        if (← r.eval last).isTrue then
          modify fun s => { s with ranges := s.ranges.filter (· != i) }
        else if !isOpen then modify fun s => { s with ranges := i :: s.ranges }
        act rule

/-- Runs the rules for all records.  The fuel bounds their number. -/
def records (r : Runners) (rules : List Rule) : Nat → Work Unit
  | 0 => return
  | fuel + 1 => do
    match ← readRecord 10000 with
    | none => return
    | some text => do
      ofEval tick
      setRecord text
      tryCatch (forRecord r rules) fun
        | .next => return
        | other => throw other
      records r rules fuel

/-- Runs a program from its start to its end. -/
def whole (p : Program) : Work Unit := do
  let r := runners command p.functions 400
  let isStart (rule : Rule) : Bool := match rule.pattern with
    | .start => true
    | _ => false
  let isStop (rule : Rule) : Bool := match rule.pattern with
    | .stop => true
    | _ => false
  let run (rules : List Rule) : Work Unit := rules.forM fun rule => r.exec (rule.action.getD [])
  tryCatch (do
    run (p.rules.filter isStart)
    if p.rules.any fun rule => !isStart rule then records r p.rules maxRounds) fun
    | .exit => return
    | other => throw other
  tryCatch (run (p.rules.filter isStop)) fun
    | .exit => return
    | other => throw other
  closePipes command none

end

end Work

/-- The values that variables have at the start. -/
def initialGlobals : List (String × Cell) := [
  ("FS", " "), ("OFS", " "), ("ORS", "\n"), ("RS", "\n"), ("SUBSEP", "\x1c"), ("OFMT", "%.6g"),
  ("CONVFMT", "%.6g"), ("FILENAME", "")].map fun (name, text) => (name, Cell.value (.text text))

/-- What a program was called with. -/
structure Call where
  name : String
  /-- Variables that are set before it starts. -/
  assigned : List (String × String)
  args : List String
  environment : List (String × String)

/-- Runs a program; sets the status of the process. -/
def run (command : RunCommand) (c : Call) (p : Program) : Eval Unit := do
  let arguments : Table := (c.name :: c.args).zipIdx.map fun (arg, i) =>
    (toString i, Value.ofInput arg)
  let environment : Table := c.environment.map fun (name, value) => (name, Value.ofInput value)
  let given : List (String × Cell) := c.assigned.map fun (name, value) =>
    (name, .value (.ofInput (String.ofList (unescapeText (value.length + 1) value.toList))))
  let start : State := {
    globals := given.reverse ++ ("ARGC", .value (.ofNat (c.args.length + 1)))
      :: ("ARGV", .array 0) :: ("ENVIRON", .array 1) :: initialGlobals
    arrays := [(0, arguments), (1, environment)], fresh := 2 }
  let (result, s) ← (Work.whole command p).run.run start
  match result with
  | .error (.broken message) => do
    printError s!"{c.name}: {message}\n"
    setStatus 2
  | _ => setStatus s.status

end MutationTesting.Shell.Rules
