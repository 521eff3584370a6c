import MutationTesting.Shell.Arithmetic
import MutationTesting.Shell.Process
import MutationTesting.Shell.Surroundings

/-!
# Conditions

`Condition.evaluate` finds out whether a condition that is given by words holds: comparisons
of texts and numbers, questions about files, and what `!`, `-a`, `-o` and parentheses make of
them.  What a word means depends on how many there are and on those after it.
-/

namespace MutationTesting.Shell.Condition

/-- Why words are no condition. -/
inductive Flaw where
  | noBracket
  | unexpected (word : String)
  | noArgument (operator : String)
  | unclosed
  | noNumber (word : String)
  deriving DecidableEq, Repr

def Flaw.message : Flaw → String
  | .noBracket => "missing ]"
  | .unexpected word =>
    if word.isEmpty then "unexpected operator" else s!"{word}: unexpected operator"
  | .noArgument op => s!"{op}: argument expected"
  | .unclosed => "closing paren expected"
  | .noNumber word => s!"Illegal number: {word}"

/-- How many operands an operator takes. -/
inductive Kind where
  | unary
  | binary
  | other
  deriving DecidableEq, Repr

/-- The words that can be operators. -/
def kind? (word : String) : Option Kind :=
  if ["-r", "-w", "-x", "-e", "-f", "-d", "-c", "-b", "-p", "-u", "-g", "-k", "-s", "-t", "-z",
    "-n", "-h", "-O", "-G", "-L", "-S"].contains word then some .unary
  else if ["=", "!=", "<", ">", "-eq", "-ne", "-ge", "-gt", "-le", "-lt", "-nt", "-ot",
    "-ef"].contains word then some .binary
  else if ["!", "-a", "-o", "(", ")"].contains word then some .other
  else none

/-- What a word is in its place. -/
inductive Token where
  | stop
  | operand
  | operator (text : String)
  deriving DecidableEq, Repr

/-- What the first of some words is.  A unary operator is an operand where nothing follows, or
a binary operator does. -/
def tokenOf : List String → Token
  | [] => .stop
  | word :: rest =>
    match kind? word with
    | none => .operand
    | some .unary =>
      match rest with
      | [] => .operand
      | [_] => .operator word
      | next :: _ => if kind? next = some .binary then .operand else .operator word
    | some _ => if word = "(" && rest.isEmpty then .operand else .operator word

def Token.isUnary : Token → Bool
  | .operator text => kind? text == some .unary
  | _ => false

/-- A computation on the words that are left, the current one first. -/
abbrev Reading := StateT (List String) (Except Flaw)

def current : Reading Token := do return tokenOf (← get)

/-- What the word after the current one is. -/
def following : Reading Token := do return tokenOf ((← get).drop 1)

def advance (n : Nat) : Reading Unit := modify (·.drop n)

def number (word : String) : Reading Int :=
  match Arithmetic.number? false word with
  | some n => return n
  | none => throw (.noNumber word)

/-- Whether a binary operator holds of two words. -/
def compareWords (d : Disk) (op a b : String) : Reading Bool := do
  match op with
  | "=" => return a == b
  | "!=" => return a != b
  | "<" => return a.toList < b.toList
  | ">" => return b.toList < a.toList
  | "-ef" =>
    match d.find (Text.decode a), d.find (Text.decode b) with
    | .ok (x, _), .ok (y, _) => return x == y
    | _, _ => return false
  | "-nt" | "-ot" => return false
  | op =>
    let x ← number a
    let y ← number b
    return match op with
      | "-eq" => x == y
      | "-ne" => x != y
      | "-ge" => decide (y ≤ x)
      | "-gt" => decide (y < x)
      | "-le" => decide (x ≤ y)
      | _ => decide (x < y)

/-- Whether a unary operator holds of a word. -/
def holds (d : Disk) (op word : String) : Reading Bool := do
  let kind := fileKind? d word
  match op with
  | "-z" => return word.isEmpty
  | "-n" => return !word.isEmpty
  | "-t" => do
    let _ ← number word
    return false
  | "-e" | "-r" | "-w" | "-O" | "-G" => return kind.isSome
  | "-f" => return kind == some .file || kind == some .program
  | "-d" => return kind == some .directory
  | "-c" => return kind == some .device
  | "-x" =>
    let isSystem := ((systemProgram? word).map fun _ => true).getD false
    return kind == some .directory || kind == some .program || isSystem
  | "-s" =>
    match kind, Process.readFile d word with
    | some .directory, _ => return true
    | _, .ok text => return !text.isEmpty
    | _, .error _ => return false
  | _ => return false

section

variable (d : Disk)

mutual

/-- Reads conditions with `-o` between them, from a token on.  The fuel bounds the number of
words. -/
def disjunction : Nat → Token → Reading Bool
  | 0, _ => return false
  | fuel + 1, t => do
    let first ← conjunction fuel t
    if (← following) = .operator "-o" then
      advance 2
      let second ← disjunction fuel (← current)
      return first || second
    else return first

/-- Reads conditions with `-a` between them. -/
def conjunction : Nat → Token → Reading Bool
  | 0, _ => return false
  | fuel + 1, t => do
    let first ← negation fuel t
    if (← following) = .operator "-a" then
      advance 2
      let second ← conjunction fuel (← current)
      return first && second
    else return first

/-- A condition after any number of `!`. -/
def negation : Nat → Token → Reading Bool
  | 0, _ => return false
  | fuel + 1, t => do
    if t = .operator "!" then
      let next ← following
      if next ≠ .stop then advance 1
      return !(← negation fuel next)
    else primary fuel t

/-- A condition in parentheses, an operator with its operands, or a word. -/
def primary : Nat → Token → Reading Bool
  | 0, _ => return false
  | fuel + 1, t => do
    if t = .stop then return false
    else if t = .operator "(" then
      advance 1
      let t ← current
      if t = .operator ")" then return false
      else
        let inner ← disjunction fuel t
        advance 1
        if (← current) = .operator ")" then return inner else throw .unclosed
    else
      match ← get, t.isUnary with
      | op :: word :: _, true => do
        advance 1
        holds d op word
      | op :: [], true => throw (.noArgument op)
      | words, _ =>
        match words, ← following with
        | a :: op :: rest, .operator _ =>
          if kind? op = some .binary then
            match rest with
            | [] => throw (.noArgument op)
            | b :: _ => do
              advance 2
              compareWords d op a b
          else return !a.isEmpty
        | a :: _, _ => return !a.isEmpty
        | [], _ => return false

end

/-- Evaluates a condition from its first word on. -/
def whole (words : List String) (t : Token) : Except Flaw Bool := do
  let (result, rest) ← (disjunction d (4 * words.length + 8) t).run words
  match rest with
  | word :: _ :: _ => throw (.unexpected word)
  | _ => return result

/-- Whether the condition holds that words make. -/
def evaluate : List String → Except Flaw Bool
  | [] => return false
  | [a, op, b] =>
    if kind? op = some .binary then whole d [a, op, b] .operand
    else if a = "(" && b = ")" then whole d [op] (tokenOf [op])
    else if a = "!" then return !(← evaluate [op, b])
    else whole d [a, op, b] (tokenOf [a, op, b])
  | [a, b, c, e] =>
    if a = "(" && e = ")" then whole d [b, c] (tokenOf [b, c])
    else if a = "!" then return !(← evaluate [b, c, e])
    else whole d [a, b, c, e] (tokenOf [a, b, c, e])
  | words => whole d words (tokenOf words)

/-- The same for words that are named by a bracket, of which the last must close it. -/
def evaluateBracket (words : List String) : Except Flaw Bool :=
  if words.getLast? = some "]" then evaluate d words.dropLast else throw .noBracket

end

end MutationTesting.Shell.Condition
