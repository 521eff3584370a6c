import MutationTesting.Shell.Pattern
import MutationTesting.Shell.Tool.File

/-!
# Finding files

`Find.run` walks directories and evaluates an expression for every file: tests of its name and
kind, and actions such as printing its path or running a program on it.
-/

namespace MutationTesting.Shell.Find

/-- A test on a file, or what is done with it. -/
inductive Expr where
  | constant (value : Bool)
  | name (pattern : Pattern) (ignoreCase : Bool)
  | path (pattern : Pattern)
  | kind (letter : Char)
  | empty
  /-- A size in units of so many bytes: more, less or as much. -/
  | size (order : Ordering) (count unit : Nat)
  | print (stop : String)
  | prune
  | delete
  | quit
  /-- Runs a program for each file, or for all of them at the end. -/
  | launch (words : List String) (together : Bool)
  | not (e : Expr)
  | both (a b : Expr)
  | either (a b : Expr)

/-- Whether an expression does something, so that paths are not printed of themselves. -/
def Expr.acts : Expr → Bool
  | .print _ | .delete | .launch _ _ | .quit => true
  | .not e => e.acts
  | .both a b | .either a b => a.acts || b.acts
  | _ => false

/-- Whether directories come after what is in them. -/
def Expr.goesDeepFirst : Expr → Bool
  | .delete => true
  | .not e => e.goesDeepFirst
  | .both a b | .either a b => a.goesDeepFirst || b.goesDeepFirst
  | _ => false

/-- What a call asks for. -/
structure Request where
  roots : List String
  expr : Expr
  least : Nat := 0
  most : Nat := 100
  deepFirst : Bool := false

/-- The words that are left, and the limits that were read. -/
structure Reading where
  words : List String
  least : Nat := 0
  most : Nat := 100
  deepFirst : Bool := false

/-- Reads a part of an expression from the words that are left. -/
abbrev Read := StateT Reading (Except String)

def next? : Read (Option String) := do return (← get).words.head?

def take : Read Unit := modify fun s => { s with words := s.words.tail }

/-- Takes the argument of a test off. -/
def argument (test : String) : Read String := do
  match ← next? with
  | some w => do
    take
    return w
  | none => throw s!"missing argument to '{test}'"

/-- Reads a size such as `+10k`. -/
def sizeOf? (text : String) : Option Expr :=
  let (order, cs) := match text.toList with
    | '+' :: cs => (Ordering.gt, cs)
    | '-' :: cs => (Ordering.lt, cs)
    | cs => (Ordering.eq, cs)
  let digits := cs.takeWhile Text.isDigit
  let unit := match cs.drop digits.length with
    | ['c'] => some 1
    | ['w'] => some 2
    | ['k'] => some 1024
    | ['M'] => some 1048576
    | [] | ['b'] => some 512
    | _ => none
  if digits.isEmpty then none else unit.map (.size order (Text.digitsValue digits))

/-- Reads a test, given a way to read what is in parentheses. -/
def test (inner : Read Expr) : Nat → Read Expr
  | 0 => throw "expression too deep"
  | fuel + 1 => do
    match ← next? with
    | none => throw "expected an expression"
    | some w => do
      take
      match w with
      | "(" => do
        let e ← inner
        match ← next? with
        | some ")" => do
          take
          return e
        | _ => throw "invalid expression; expected to find a ')' but didn't see one."
      | "!" | "-not" => return .not (← test inner fuel)
      | "-name" => return .name (.ofText (← argument w)) false
      | "-iname" =>
        let text ← argument w
        return .name (.ofText (String.ofList (text.toList.map Char.toLower))) true
      | "-path" | "-wholename" => return .path (.ofText (← argument w))
      | "-type" => return .kind (((← argument w).toList).headD 'f')
      | "-empty" => return .empty
      | "-true" => return .constant true
      | "-false" => return .constant false
      | "-print" => return .print "\n"
      | "-print0" => return .print "\x00"
      | "-prune" => return .prune
      | "-delete" => return .delete
      | "-quit" => return .quit
      | "-size" =>
        let text ← argument w
        match sizeOf? text with
        | some e => return e
        | none => throw s!"invalid -size type '{text}'"
      | "-maxdepth" | "-mindepth" =>
        let text ← argument w
        match Text.digits? text.toList with
        | some n => do
          modify fun s => if w = "-maxdepth" then { s with most := n } else { s with least := n }
          return .constant true
        | none => throw s!"Expected a positive decimal integer argument to {w}, but got '{text}'"
      | "-depth" => do
        modify fun s => { s with deepFirst := true }
        return .constant true
      | "-newer" | "-mtime" | "-mmin" | "-perm" | "-user" => do
        let _ ← argument w
        return .constant true
      | "-exec" | "-ok" => do
        let s ← get
        let words := s.words.takeWhile fun v => v != ";" && v != "+"
        match s.words.drop words.length with
        | [] => throw s!"missing argument to '{w}'"
        | stop :: rest => do
          set { s with words := rest }
          return .launch words (stop == "+")
      | w =>
        if w.startsWith "-" then throw s!"unknown predicate '{w}'"
        else throw s!"paths must precede expression: '{w}'"

/-- Goes on with tests that must all hold; the fuel bounds their number. -/
def conjunction (test : Read Expr) : Nat → Expr → Read Expr
  | 0, e => return e
  | n + 1, e => do
    match ← next? with
    | none | some ")" | some "-o" | some "-or" => return e
    | some "-a" | some "-and" => do
      take
      conjunction test n (.both e (← test))
    | some _ => do conjunction test n (.both e (← test))

/-- Reads alternatives; the fuel bounds their number. -/
def disjunction (test : Read Expr) : Nat → Read Expr
  | 0 => throw "expression too deep"
  | n + 1 => do
    let e ← conjunction test n (← test)
    match ← next? with
    | some "-o" | some "-or" => do
      take
      return .either e (← disjunction test n)
    | _ => return e

/-- Reads an expression.  The fuel bounds the depth of parentheses. -/
def expression (count : Nat) : Nat → Read Expr
  | 0 => throw "expression too deep"
  | fuel + 1 => disjunction (test (expression count fuel) count) count

/-- Reads the arguments of a call. -/
def Request.read (args : List String) : Except String Request := do
  let startsExpr (w : String) : Bool := w.startsWith "-" || w == "(" || w == "!"
  let roots := args.takeWhile fun w => !startsExpr w
  let words := args.drop roots.length
  let roots := if roots.isEmpty then ["."] else roots
  if words.isEmpty then return { roots := roots, expr := .print "\n" }
  else
    let count := words.length + 2
    let (e, s) ← (expression count count).run { words := words }
    match s.words with
    | [] =>
      return {
        roots := roots, expr := if e.acts then e else .both e (.print "\n")
        least := s.least, most := s.most, deepFirst := s.deepFirst || e.goesDeepFirst }
    | w :: _ => throw s!"paths must precede expression: '{w}'"

/-! ### Walking -/

/-- What a walk has come to. -/
structure Walk where
  pruned : Bool := false
  ended : Bool := false
  status : Nat := 0
  /-- The paths for programs that run on all files at once, the last one first. -/
  batches : List (List String × List String) := []

/-- A walk over a directory inside of a run of the shell. -/
abbrev Walking := StateT Walk Eval

section

variable (launch : List String → Eval Unit)

/-- The words of a program for a path. -/
def wordsFor (path : String) (words : List String) : List String :=
  words.map fun w => w.replace "\x7b\x7d" path

/-- Evaluates an expression for a file. -/
def evaluate (path : String) (kind : FileKind) : Expr → Walking Bool
  | .constant value => return value
  | .name pattern ignoreCase =>
    let name := basenameOf path
    return pattern.isMatch
      (if ignoreCase then String.ofList (name.toList.map Char.toLower) else name)
  | .path pattern => return pattern.isMatch path
  | .kind letter => return (letter == 'd') == (kind == .directory) && "fd".toList.contains letter
  | .empty => do
    let d := (← (StateT.lift get : Walking Process)).disk
    match d.find (Text.decode path) with
    | .ok (location, .directory) => return (d.namesIn location).isEmpty
    | .ok (_, .file content) => return content.bytes.isEmpty
    | .error _ => return false
  | .size order count unit => do
    let d := (← (StateT.lift get : Walking Process)).disk
    let size := ((Process.readFile d path).toOption.map String.length).getD 4096
    return compare ((size + unit - 1) / unit) count == order
  | .print stop => do
    let _ ← (StateT.lift (emit 1 (path ++ stop)) : Walking Bool)
    return true
  | .prune => do
    modify fun w => { w with pruned := true }
    return true
  | .quit => do
    modify fun w => { w with ended := true }
    return true
  | .delete => do
    if path = "." then return true
    else
      let p ← (StateT.lift get : Walking Process)
      let result : Except FileError Disk := match p.disk.find (Text.decode path) with
        | .ok (location, .directory) =>
          if (p.disk.namesIn location).isEmpty then .ok (p.disk.erase location)
          else .error FileError.directoryNotEmpty
        | .ok (location, .file _) => .ok (p.disk.erase location)
        | .error e => .error e
      match result with
      | .ok d => do
        StateT.lift (modify fun p => { p with disk := d })
        return true
      | .error e => do
        StateT.lift (printError s!"find: cannot delete '{path}': {e.reason}\n")
        modify fun w => { w with status := 1 }
        return false
  | .launch words together => do
    if together then
      modify fun w =>
        let paths := (w.batches.lookup words).getD []
        { w with batches :=
            (words, path :: paths) :: w.batches.filter fun (other, _) => other != words }
      return true
    else
      StateT.lift (launch (wordsFor path words))
      return (← (StateT.lift get : Walking Process)).status = 0
  | .not e => do return !(← evaluate path kind e)
  | .both a b => do if ← evaluate path kind a then evaluate path kind b else return false
  | .either a b => do if ← evaluate path kind a then return true else evaluate path kind b

/-- Walks a file or directory.  The fuel bounds the depth. -/
def visit (r : Request) : Nat → Nat → String → Walking Unit
  | 0, _, _ => return
  | fuel + 1, depth, path => do
    let d := (← (StateT.lift get : Walking Process)).disk
    match fileKind? d path with
    | none => do
      StateT.lift (printError s!"find: '{path}': No such file or directory\n")
      modify fun w => { w with status := 1 }
    | some kind =>
      let here : Walking Unit := do
        if r.least ≤ depth && !(← get).ended then
          let _ ← evaluate launch path kind r.expr
      modify fun w => { w with pruned := false }
      if !r.deepFirst then here
      if kind = .directory && depth < r.most && !(← get).pruned then
        let names := match d.find (Text.decode path) with
          | .ok (location, _) => (d.namesIn location).map Text.encode
          | .error _ => []
        for name in names do
          if !(← get).ended then visit r fuel (depth + 1) (pathWithin path name)
      if r.deepFirst then here

/-- Walks all roots, and runs the programs that run on all files at once. -/
def run (args : List String) : Eval Unit := do
  match Request.read args with
  | .error text => do
    printError s!"find: {text}\n"
    setStatus 1
  | .ok r => do
    let ((), w) ← (r.roots.forM (visit launch r 100 0)).run {}
    for (words, paths) in w.batches.reverse do
      launch (words.filter (· != "\x7b\x7d") ++ paths.reverse)
    setStatus w.status

end

end MutationTesting.Shell.Find
