import MutationTesting.Shell.Rules
import MutationTesting.Shell.Rules.Token

/-!
# Reading rules

`Program.read?` reads a program by recursive descent.  A complaint names the line and the token
at which something is wrong.
-/

namespace MutationTesting.Shell.Rules

/-- What is wrong with a program, and on which line. -/
structure Flaw where
  line : Nat
  reason : String

/-- Reads a part of a program from the tokens that are left. -/
abbrev Reading := StateT (List Placed) (Except Flaw)

namespace Reading

def peek : Reading Token := do return ((← get).head?.map (·.1)).getD .stop

def peekSecond : Reading Token := do return (((← get).drop 1).head?.map (·.1)).getD .stop

def take : Reading Unit := modify (·.drop 1)

/-- Complains about the next token. -/
def unexpected {α : Type} : Reading α := do
  let (t, line) := (← get).headD (.stop, 1)
  match t with
  | .stop => throw ⟨line, "syntax error at or near end of file"⟩
  | .newline => throw ⟨line, "syntax error at or near end of line"⟩
  | t => throw ⟨line, s!"syntax error at or near {t.shown}"⟩

def isSign (s : String) : Reading Bool := do
  match ← peek with
  | .sign t => return t == s
  | _ => return false

def isKeyword (s : String) : Reading Bool := do
  match ← peek with
  | .keyword t => return t == s
  | _ => return false

/-- Takes a sign off if it comes next. -/
def accept (s : String) : Reading Bool := do
  if ← isSign s then
    take
    return true
  else return false

def expect (s : String) : Reading Unit := do
  if ← accept s then return else unexpected

/-- Takes ends of lines off; the fuel bounds their number. -/
def skipLines : Nat → Reading Unit
  | 0 => return
  | n + 1 => do
    match ← peek with
    | .newline => do
      take
      skipLines n
    | _ => return

def budget : Reading Nat := do return (← get).length + 1

def skipNewlines : Reading Unit := do skipLines (← budget)

/-- Signs that count for something else around an expression. -/
structure Context where
  /-- Whether `in` is not an operator. -/
  noIn : Bool := false
  /-- Whether `>` is not an operator. -/
  noGreater : Bool := false

/-- Reads an expression in a context. -/
abbrev ReadExpr := Context → Reading Expr

/-- The program of a regular expression. -/
def regexOf (s : String) : Reading Text.Regex.Program :=
  match Text.Regex.parse .scripting s.toList with
  | .ok r => return r.compile
  | .error _ => do
    let (_, line) := (← get).headD (.stop, 1)
    throw ⟨line, s!"regular expression compile failed (bad expression)\n{s}"⟩

section

variable (inner : ReadExpr)

/-- Reads expressions with commas between them after the first one; the fuel bounds their
number. -/
def moreExprs (c : Context) : Nat → Reading (List Expr)
  | 0 => return []
  | n + 1 => do
    if ← accept "," then
      skipNewlines
      let e ← inner c
      return e :: (← moreExprs c n)
    else return []

/-- Reads the arguments of a call up to its closing parenthesis. -/
def arguments : Reading (List Expr) := do
  expect "("
  skipNewlines
  if ← accept ")" then return []
  else
    let first ← inner {}
    let rest ← moreExprs inner {} (← budget)
    skipNewlines
    expect ")"
    return first :: rest

/-- Reads a variable, an element of an array or a field, which can get a value. -/
def target? : Nat → Reading (Option Expr)
  | 0 => return none
  | fuel + 1 => do
    match ← peek with
    | .name name => do
      take
      if ← accept "[" then
        let first ← inner {}
        let rest ← moreExprs inner {} (← budget)
        expect "]"
        return some (.element name (first :: rest))
      else return some (.name name)
    | .sign "$" => do
      take
      match ← peek with
      | .number f => do
        take
        return some (.field (.number f))
      | .sign "(" => do
        take
        let e ← inner {}
        expect ")"
        return some (.field e)
      | .sign "++" | .sign "--" => do
        let delta := if ← isSign "++" then 1.0 else -1.0
        take
        match ← target? fuel with
        | some t => return some (.field (.step true delta t))
        | none => unexpected
      | .sign "-" => do
        take
        match ← target? fuel with
        | some t => return some (.field (.negate t))
        | none => unexpected
      | _ =>
        match ← target? fuel with
        | some t => return some (.field t)
        | none => unexpected
    | _ => return none

/-- Reads the target of `getline`, if there is one. -/
def getlineTarget : Reading (Option Expr) := do target? inner (← budget)

/-- Reads an operand without signs before it. -/
def operand : Reading Expr := do
  match ← peek with
  | .number f => do
    take
    return .number f
  | .text s => do
    take
    return .text s
  | .regex s => do
    take
    return .regex (← regexOf s)
  | .sign "(" => do
    take
    skipNewlines
    let first ← inner {}
    let rest ← moreExprs inner {} (← budget)
    skipNewlines
    expect ")"
    if rest.isEmpty then return first
    else if ← isKeyword "in" then
      take
      match ← peek with
      | .name array => do
        take
        return .isIn (first :: rest) array
      | _ => unexpected
    else unexpected
  | .sign "++" | .sign "--" => do
    let delta := if ← isSign "++" then 1.0 else -1.0
    take
    match ← getlineTarget inner with
    | some t => return .step true delta t
    | none => unexpected
  | .callee name => do
    take
    return .call name (← arguments inner)
  | .builtin name => do
    take
    if ← isSign "(" then return .builtin name (← arguments inner)
    else if name = "length" then return .builtin name []
    else unexpected
  | .keyword "getline" => do
    take
    let t ← getlineTarget inner
    if ← accept "<" then
      let path ← match ← getlineTarget inner with
        | some e => pure e
        | none =>
          match ← peek with
          | .text s => do
            take
            pure (.text s)
          | .sign "(" => do
            take
            let e ← inner {}
            expect ")"
            pure e
          | _ => unexpected
      return .getline t (.file path)
    else return .getline t .records
  | _ =>
    match ← getlineTarget inner with
    | some t =>
      if ← accept "++" then return .step false 1 t
      else if ← accept "--" then return .step false (-1) t
      else return t
    | none => unexpected

mutual

/-- Reads an operand with signs before it and powers.  The fuel bounds their number. -/
def signed : Nat → Reading Expr
  | 0 => operand inner
  | fuel + 1 => do
    if ← accept "!" then return .not (← signed fuel)
    else if ← accept "-" then return .negate (← signed fuel)
    else if ← accept "+" then return .numeric (← signed fuel)
    else powers fuel

/-- Powers bind to the right, and their exponent may have a sign. -/
def powers : Nat → Reading Expr
  | 0 => operand inner
  | fuel + 1 => do
    let base ← operand inner
    if ← accept "^" then return .compute .power base (← signed fuel) else return base

end

/-- Goes on with operators of a table.  The fuel bounds their number. -/
def operators (table : List (String × Operator)) (tighter : Reading Expr) :
    Nat → Expr → Reading Expr
  | 0, a => return a
  | fuel + 1, a => do
    match ← peek with
    | .sign s =>
      match table.lookup s with
      | some op => do
        take
        operators table tighter fuel (.compute op a (← tighter))
      | none => return a
    | _ => return a

/-- Products, quotients and remainders, from the left. -/
def products : Reading Expr := do
  let n ← budget
  operators [("*", .times), ("/", .quotient), ("%", .modulo)] (signed inner n) n (← signed inner n)

/-- Sums and differences, from the left. -/
def sums : Reading Expr := do
  operators [("+", .plus), ("-", .minus)] (products inner) (← budget) (← products inner)

/-- Whether a token can start an operand that is put behind another one. -/
def startsOperand : Token → Bool
  | .number _ | .text _ | .regex _ | .name _ | .callee _ | .builtin _ => true
  | .sign s => ["$", "(", "-", "+", "++", "--"].contains s
  | _ => false

/-- Reads operands that are put together; the fuel bounds their number. -/
def joined : Nat → Expr → Reading Expr
  | 0, a => return a
  | fuel + 1, a => do
    if startsOperand (← peek) then joined fuel (.concat a (← sums inner)) else return a

/-- Goes on with lines that are read from commands; the fuel bounds their number. -/
def commandLines : Nat → Expr → Reading Expr
  | 0, a => return a
  | fuel + 1, a => do
    match ← peek, ← peekSecond with
    | .sign "|", .keyword "getline" => do
      take
      take
      let t ← getlineTarget inner
      commandLines fuel (.getline t (.command a))
    | _, _ => return a

/-- At most one comparison. -/
def comparisons (c : Context) : Reading Expr := do
  let part : Reading Expr := do
    let n ← budget
    commandLines inner n (← joined inner n (← sums inner))
  let a ← part
  let op : Option Comparison := match ← peek with
    | .sign "<" => some .less
    | .sign "<=" => some .atMost
    | .sign "==" => some .equal
    | .sign "!=" => some .unequal
    | .sign ">" => if c.noGreater then none else some .greater
    | .sign ">=" => some .atLeast
    | _ => none
  match op with
  | some op => do
    take
    return .compare op a (← part)
  | none => return a

/-- Goes on with matches; the fuel bounds their number. -/
def matchings (c : Context) : Nat → Expr → Reading Expr
  | 0, a => return a
  | fuel + 1, a => do
    if ← accept "~" then matchings c fuel (.matches false a (← comparisons inner c))
    else if ← accept "!~" then matchings c fuel (.matches true a (← comparisons inner c))
    else return a

/-- Goes on with questions for elements; the fuel bounds their number. -/
def memberships (c : Context) : Nat → Expr → Reading Expr
  | 0, a => return a
  | fuel + 1, a => do
    if !c.noIn && (← isKeyword "in") then
      take
      match ← peek with
      | .name array => do
        take
        memberships c fuel (.isIn [a] array)
      | _ => unexpected
    else return a

/-- Reads a conjunction or a disjunction; the fuel bounds the number of parts. -/
def junction (s : String) (make : Expr → Expr → Expr) (part : Reading Expr) :
    Nat → Expr → Reading Expr
  | 0, a => return a
  | fuel + 1, a => do
    if ← accept s then
      skipNewlines
      let b ← part
      junction s make part fuel (make a b)
    else return a

/-- The operators of assignments. -/
def assignments : List (String × Option Operator) := [
  ("=", none), ("+=", some .plus), ("-=", some .minus), ("*=", some .times), ("/=", some .quotient),
  ("%=", some .modulo), ("^=", some .power)]

/-- Whether an expression can get a value. -/
def isTarget : Expr → Bool
  | .name _ | .element _ _ | .field _ => true
  | _ => false

/-- Reads an expression up to a choice or an assignment; the fuel bounds the number of those. -/
def whole (c : Context) : Nat → Reading Expr
  | 0 => unexpected
  | fuel + 1 => do
    let n ← budget
    let member : Reading Expr := do
      memberships c n (← matchings inner c n (← comparisons inner c))
    let conjunction : Reading Expr := do junction "&&" .both member n (← member)
    let e ← junction "||" .either conjunction n (← conjunction)
    if ← accept "?" then
      skipNewlines
      let yes ← whole c fuel
      skipNewlines
      expect ":"
      skipNewlines
      return .choice e yes (← whole c fuel)
    else match ← peek with
      | .sign s =>
        match assignments.lookup s with
        | some op => do
          if isTarget e then
            take
            skipNewlines
            return .assign op e (← whole c fuel)
          else match e with
            -- a comparison or a negation of a target that gets a value
            | .not t => do
              if isTarget t then
                take
                return .not (.assign op t (← whole c fuel))
              else unexpected
            | .compare k a t => do
              if isTarget t then
                take
                return .compare k a (.assign op t (← whole c fuel))
              else unexpected
            | .both a t => do
              if isTarget t then
                take
                return .both a (.assign op t (← whole c fuel))
              else unexpected
            | .either a t => do
              if isTarget t then
                take
                return .either a (.assign op t (← whole c fuel))
              else unexpected
            | _ => unexpected
        | none => return e
      | _ => return e

end

/-- Reads an expression.  The fuel bounds the depth of parentheses. -/
def expr : Nat → ReadExpr
  | 0, _ => unexpected
  | fuel + 1, c => do whole (expr fuel) c (← budget)

/-- Reads an expression. -/
def anExpr (c : Context) : Reading Expr := do expr (← budget) c

/-! ### Statements -/

/-- Takes the end of a statement off; before a closing brace there need be none. -/
def finish : Reading Unit := do
  match ← peek with
  | .sign ";" | .newline => do
    take
    skipNewlines
  | .sign "\x7d" | .stop => return
  | _ => unexpected

/-- Reads expressions with commas between them. -/
def exprs (c : Context) : Reading (List Expr) := do
  let first ← anExpr c
  return first :: (← moreExprs (fun c => anExpr c) c (← budget))

/-- Reads where a statement prints to. -/
def destination : Reading Destination := do
  let c : Context := { noGreater := true }
  if ← accept ">" then return .file (← anExpr c) false
  else if ← accept ">>" then return .file (← anExpr c) true
  else if ← accept "|" then return .command (← anExpr c)
  else return .output

/-- Reads what is printed, with or without parentheses around it. -/
def printArgs : Reading (List Expr) := do
  let c : Context := { noGreater := true }
  match ← peek with
  | .newline | .stop | .sign ";" | .sign "\x7d" | .sign ">" | .sign ">>" | .sign "|" => return []
  | .sign "(" =>
    let before ← get
    let grouped : Reading (List Expr) := do
      take
      skipNewlines
      let es ← exprs {}
      skipNewlines
      expect ")"
      match ← peek with
      | .newline | .stop => return es
      | .sign ";" | .sign "\x7d" | .sign ">" | .sign ">>" | .sign "|" => return es
      | _ => unexpected
    tryCatch grouped fun _ => do
      set before
      exprs c
  | _ => exprs c

/-- Reads a statement without an end of its own. -/
def simple : Reading Statement := do
  match ← peek with
  | .keyword "print" => do
    take
    let args ← printArgs
    return .print args (← destination)
  | .keyword "printf" => do
    take
    let args ← printArgs
    if args.isEmpty then unexpected
    return .printf args (← destination)
  | .keyword "delete" => do
    take
    match ← peek with
    | .name array => do
      take
      if ← accept "[" then
        let index ← exprs {}
        expect "]"
        return .delete array index
      else return .deleteAll array
    | _ => unexpected
  | _ => return .expr (← anExpr {})

/-- Whether a statement ends here. -/
def endsHere : Reading Bool := do
  match ← peek with
  | .newline | .stop | .sign ";" | .sign "\x7d" => return true
  | _ => return false

/-- Reads an expression that may be missing. -/
def exprUnlessEnd : Reading (Option Expr) := do
  if ← endsHere then return none else some <$> anExpr {}

/-- Takes ends of statements off; the fuel bounds their number. -/
def skipEnds : Nat → Reading Unit
  | 0 => return
  | n + 1 => do
    match ← peek with
    | .newline | .sign ";" => do
      take
      skipEnds n
    | _ => return

/-- Reads statements up to a closing brace, given a way to read one; the fuel bounds their
number. -/
def statements (one : Reading Statement) : Nat → Reading (List Statement)
  | 0 => return []
  | n + 1 => do
    skipEnds (← budget)
    if ← isSign "\x7d" then return []
    else
      let s ← one
      return s :: (← statements one n)

/-- Reads statements in braces. -/
def braced (one : Reading Statement) : Reading (List Statement) := do
  expect "\x7b"
  let body ← statements one (← budget)
  expect "\x7d"
  return body

/-- Reads a statement.  The fuel bounds the depth. -/
def statement : Nat → Reading Statement
  | 0 => unexpected
  | fuel + 1 => do
    let body : Reading (List Statement) := do
      skipNewlines
      if ← accept ";" then return []
      else return [← statement fuel]
    let plain (s : Statement) : Reading Statement := do
      take
      finish
      return s
    match ← peek with
    | .sign "\x7b" => do
      let body ← braced (statement fuel)
      skipEnds (← budget)
      return .block body
    | .sign ";" => do
      take
      return .block []
    | .keyword "if" => do
      take
      expect "("
      let test ← anExpr {}
      expect ")"
      let yes ← body
      let before ← get
      skipEnds (← budget)
      if ← isKeyword "else" then
        take
        return .conditional test yes (← body)
      else
        set before
        return .conditional test yes []
    | .keyword "while" => do
      take
      expect "("
      let test ← anExpr {}
      expect ")"
      return .loop test (← body)
    | .keyword "do" => do
      take
      let b ← body
      skipEnds (← budget)
      if ← isKeyword "while" then
        take
        expect "("
        let test ← anExpr {}
        expect ")"
        finish
        return .repeating b test
      else unexpected
    | .keyword "for" => do
      take
      expect "("
      match ← get with
      | (.name name, _) :: (.keyword "in", _) :: (.name array, _) :: (.sign ")", _) :: rest => do
        set rest
        return .each name array (← body)
      | _ => do
        let start ← if ← isSign ";" then pure none else some <$> simple
        expect ";"
        skipNewlines
        let test ← if ← isSign ";" then pure none else some <$> anExpr {}
        expect ";"
        skipNewlines
        let step ← if ← isSign ")" then pure none else some <$> simple
        expect ")"
        return .counting start test step (← body)
    | .keyword "next" | .keyword "nextfile" => plain .next
    | .keyword "break" => plain .leave
    | .keyword "continue" => plain .again
    | .keyword "exit" => do
      take
      let status ← exprUnlessEnd
      finish
      return .exit status
    | .keyword "return" => do
      take
      let value ← exprUnlessEnd
      finish
      return .back value
    | _ => do
      let s ← simple
      finish
      return s

/-- Reads statements in braces. -/
def action : Reading (List Statement) := do braced (statement (← budget))

/-- Reads names with commas between them up to a closing parenthesis; the fuel bounds their
number. -/
def params : Nat → Reading (List String)
  | 0 => return []
  | n + 1 => do
    skipNewlines
    match ← peek with
    | .sign ")" => do
      take
      return []
    | .sign "," => do
      take
      params n
    | .name name => do
      take
      return name :: (← params n)
    | _ => unexpected

/-- Reads rules and functions to the end; the fuel bounds their number. -/
def program : Nat → Program → Reading Program
  | 0, p => return p
  | n + 1, p => do
    skipEnds (← budget)
    let add (r : Rule) : Reading Program := program n { p with rules := p.rules ++ [r] }
    match ← peek with
    | .stop => return p
    | .keyword "BEGIN" => do
      take
      skipNewlines
      add ⟨.start, some (← action)⟩
    | .keyword "END" => do
      take
      skipNewlines
      add ⟨.stop, some (← action)⟩
    | .keyword "function" | .keyword "func" => do
      take
      match ← peek with
      | .name name | .callee name => do
        take
        expect "("
        let names ← params (← budget)
        skipNewlines
        let body ← action
        program n { p with functions := p.functions ++ [⟨name, names, body⟩] }
      | _ => unexpected
    | .sign "\x7b" => do add ⟨.always, some (← action)⟩
    | _ => do
      let first ← anExpr {}
      let pattern ← if ← accept "," then do
          skipNewlines
          pure (Pattern.range first (← anExpr {}))
        else pure (.test first)
      if ← isSign "\x7b" then add ⟨pattern, some (← action)⟩
      else
        if !(← endsHere) then unexpected
        add ⟨pattern, none⟩

end Reading

/-- Reads a program. -/
def Program.read? (text : String) : Except Flaw Program :=
  match tokens text with
  | .error (line, reason) => .error ⟨line, reason⟩
  | .ok ts => return (← (Reading.program (ts.length + 1) {}).run ts).1

end MutationTesting.Shell.Rules
