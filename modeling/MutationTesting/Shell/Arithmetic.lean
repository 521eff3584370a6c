import MutationTesting.Text.CharSet
import MutationTesting.Text.Numeral
import MutationTesting.Shell

/-!
# Arithmetic of the shell

`evaluate` computes with whole numbers of 64 bits and with variables, to which it may assign.
The operators and their ranks are those of the language C, without those that step a
variable.
-/

namespace MutationTesting.Shell.Arithmetic

/-- Why an expression has no value. -/
inductive Flaw where
  /-- What was wanted where something else stands. -/
  | expecting (what : String)
  | zeroDivision
  /-- A variable that holds no number. -/
  | illegal (text : String)
  deriving DecidableEq, Repr

/-- What is said about an expression that has no value. -/
def Flaw.message (expression : String) : Flaw → String
  | .expecting what => s!"arithmetic expression: expecting {what}: \"{expression}\""
  | .zeroDivision => s!"arithmetic expression: division by zero: \"{expression}\""
  | .illegal text => s!"Illegal number: {text}"

/-! ### Numbers -/

/-- A number as 64 bits with a sign hold it. -/
def wrap (n : Int) : Int := (Int64.ofInt n).toInt

def maxInt : Int := 9223372036854775807

def minInt : Int := -9223372036854775808

/-- The value of a digit in bases up to 36. -/
def digitValue (c : Char) : Nat :=
  if '0' ≤ c && c ≤ '9' then c.toNat - '0'.toNat
  else if 'a' ≤ c && c ≤ 'z' then c.toNat - 'a'.toNat + 10
  else if 'A' ≤ c && c ≤ 'Z' then c.toNat - 'A'.toNat + 10
  else 99

/-- The value of the digits at the start of a text, and what follows them. -/
def digitsIn (base : Nat) (cs : List Char) : Nat × List Char :=
  let digits := cs.takeWhile fun c => digitValue c < base
  (digits.foldl (fun n c => base * n + digitValue c) 0, cs.drop digits.length)

/-- The number at the start of a text without a sign: in base 16 after `0x`, in base 8 after
`0`, and else in base 10. -/
def unsigned? (cs : List Char) : Option (Nat × List Char) :=
  match cs with
  | '0' :: x :: c :: rest =>
    if (x == 'x' || x == 'X') && digitValue c < 16 then some (digitsIn 16 (c :: rest))
    else some (digitsIn 8 cs)
  | '0' :: _ => some (digitsIn 8 cs)
  | c :: _ => if '0' ≤ c && c ≤ '9' then some (digitsIn 10 cs) else none
  | [] => none

/-- The number at the start of a text after blanks and a sign, in any of the bases or in base
10 alone, and what follows it. -/
def integer? (anyBase : Bool) (cs : List Char) : Option (Int × List Char) :=
  let cs := cs.dropWhile Text.CharSet.space.contains
  let (negative, cs) := match cs with
    | '-' :: rest => (true, rest)
    | '+' :: rest => (false, rest)
    | cs => (false, cs)
  let magnitude := if anyBase then unsigned? cs
    else if cs.head?.any Text.isDigit then some (digitsIn 10 cs) else none
  magnitude.map fun (n, rest) => (if negative then -(n : Int) else n, rest)

/-- The number that a text is as a whole, but for blanks; it must not be empty unless bases
are free, and it must fit into 64 bits. -/
def number? (anyBase : Bool) (text : String) : Option Int :=
  match integer? anyBase text.toList with
  | none =>
    if anyBase && text.toList.all Text.CharSet.space.contains then some 0 else none
  | some (n, rest) =>
    if rest.all Text.CharSet.space.contains && minInt ≤ n && n ≤ maxInt then some n else none

/-! ### Tokens -/

/-- A piece of an expression. -/
inductive Token where
  | number (n : Int)
  | name (text : String)
  | sign (text : String)
  | unknown
  | stop
  deriving DecidableEq, Repr

/-- The signs of expressions, each before those that it starts with. -/
def signs : List String := [
  "<<=", ">>=", "&&", "||", "==", "!=", "<=", ">=", "<<", ">>", "+=", "-=", "*=", "/=", "%=",
  "&=", "|=", "^=", "+", "-", "*", "/", "%", "<", ">", "=", "!", "~", "&", "|", "^", "?", ":",
  "(", ")"]

/-- The tokens of an expression.  The fuel bounds their number. -/
def tokens : Nat → List Char → List Token
  | 0, _ => []
  | fuel + 1, cs =>
    match cs.dropWhile fun c => c == ' ' || c == '\t' || c == '\n' with
    | [] => []
    | c :: rest =>
      match unsigned? (c :: rest) with
      | some (n, rest) => .number (min n maxInt) :: tokens fuel rest
      | none =>
        if isNameStart c then
          let name := (c :: rest).takeWhile isNameChar
          .name (String.ofList name) :: tokens fuel ((c :: rest).drop name.length)
        else match signs.find? fun s => s.toList.isPrefixOf (c :: rest) with
          | some s => .sign s :: tokens fuel ((c :: rest).drop s.length)
          | none => [.unknown]

/-! ### Values -/

/-- What a computation works on: the tokens that are left, and the variables that were set. -/
structure State where
  tokens : List Token
  assigned : List (String × Int) := []

/-- A computation that reads its expression as it goes. -/
abbrev Compute := StateT State (Except Flaw)

def peek : Compute Token := do return (← get).tokens.headD .stop

def take : Compute Unit := modify fun s => { s with tokens := s.tokens.drop 1 }

/-- Takes a sign off that must come next. -/
def expect (s what : String) : Compute Unit := do
  if (← peek) = .sign s then take else throw (.expecting what)

/-- Truth as a number. -/
def truth (b : Bool) : Int := if b then 1 else 0

/-- The binary operators that compute from two numbers, with their ranks: those of a lower
rank bind more tightly. -/
def rank? (s : String) : Option Nat :=
  [("*", 0), ("/", 0), ("%", 0), ("+", 1), ("-", 1), ("<<", 2), (">>", 2), ("<", 3), ("<=", 3),
    (">", 3), (">=", 3), ("==", 4), ("!=", 4), ("&", 5), ("^", 6), ("|", 7)].lookup s

/-- Computes from two numbers. -/
def binary (s : String) (a b : Int) : Except Flaw Int :=
  let bits (f : UInt64 → UInt64 → UInt64) : Int :=
    (f (Int64.ofInt a).toUInt64 (Int64.ofInt b).toUInt64).toInt64.toInt
  match s with
  | "*" => .ok (wrap (a * b))
  | "/" => if b = 0 then .error .zeroDivision else .ok (wrap (Int.tdiv a b))
  | "%" => if b = 0 then .error .zeroDivision else .ok (Int.tmod a b)
  | "+" => .ok (wrap (a + b))
  | "-" => .ok (wrap (a - b))
  | "<<" => .ok (wrap (a * Nat.pow 2 (Int.emod b 64).toNat))
  | ">>" => .ok (Int.fdiv a (Nat.pow 2 (Int.emod b 64).toNat))
  | "<" => .ok (truth (a < b))
  | "<=" => .ok (truth (a ≤ b))
  | ">" => .ok (truth (b < a))
  | ">=" => .ok (truth (b ≤ a))
  | "==" => .ok (truth (a = b))
  | "!=" => .ok (truth (a ≠ b))
  | "&" => .ok (bits (· &&& ·))
  | "^" => .ok (bits (· ^^^ ·))
  | _ => .ok (bits (· ||| ·))

/-- The operator of an assignment that computes first. -/
def compound? (s : String) : Option String :=
  if ["+=", "-=", "*=", "/=", "%=", "&=", "|=", "^=", "<<=", ">>="].contains s then
    some (String.ofList s.toList.dropLast)
  else none

section

variable (value : String → Option String)

/-- The number that a variable holds. -/
def lookup (name : String) : Compute Int := do
  match (← get).assigned.lookup name with
  | some n => return n
  | none =>
    let text := (value name).getD ""
    match number? true text with
    | some n => return n
    | none => throw (.illegal text)

/-- A computation of a part of an expression; a part that does not count is only read. -/
abbrev Part := Bool → Compute Int

/-- Computes an operand, given a way to compute what stands in parentheses.  The fuel bounds
the number of signs before it. -/
def operand (inner : Part) : Nat → Part
  | 0, _ => throw (.expecting "primary")
  | fuel + 1, counts => do
    let t ← peek
    take
    match t with
    | .number n => return n
    | .name name => if counts then lookup value name else return 0
    | .sign "(" => do
      let n ← inner counts
      expect ")" "')'"
      return n
    | .sign "+" => operand inner fuel counts
    | .sign "-" => return wrap (-(← operand inner fuel counts))
    | .sign "!" => return truth ((← operand inner fuel counts) = 0)
    | .sign "~" => return -(← operand inner fuel counts) - 1
    | _ => throw (.expecting "primary")

end

/-- Goes on with operators of one rank, whose operands `tighter` computes.  The fuel bounds
their number. -/
def operators (tighter : Part) (rank : Nat) : Nat → Int → Part
  | 0, a, _ => return a
  | fuel + 1, a, counts => do
    match ← peek with
    | .sign s =>
      if rank? s = some rank then
        take
        let b ← tighter counts
        let c ← if counts then binary s a b else pure b
        operators tighter rank fuel c counts
      else return a
    | _ => return a

/-- The number of tokens that are left. -/
def budget : Compute Nat := do return (← get).tokens.length + 1

/-- Computes an expression of operators up to a rank. -/
def ranked (operand : Part) : Nat → Part
  | 0, counts => do operators operand 0 (← budget) (← operand counts) counts
  | rank + 1, counts => do
    let tighter := ranked operand rank
    operators tighter (rank + 1) (← budget) (← tighter counts) counts

/-- Computes a conjunction or a disjunction, of which the second part counts only if the first
one leaves it open.  The fuel bounds the number of parts. -/
def junction (isAnd : Bool) (tighter : Part) : Nat → Part
  | 0, counts => tighter counts
  | fuel + 1, counts => do
    let a ← tighter counts
    if (← peek) = .sign (if isAnd then "&&" else "||") then
      take
      let b ← junction isAnd tighter fuel (counts && (a ≠ 0) == isAnd)
      return truth (if isAnd then a ≠ 0 && b ≠ 0 else a ≠ 0 || b ≠ 0)
    else return a

/-- Computes a choice between two values.  The fuel bounds the number of choices. -/
def choice (tighter inner : Part) : Nat → Part
  | 0, counts => tighter counts
  | fuel + 1, counts => do
    let a ← tighter counts
    if (← peek) = .sign "?" then
      take
      let b ← inner (counts && a ≠ 0)
      expect ":" "':'"
      let c ← choice tighter inner fuel (counts && a = 0)
      return if a ≠ 0 then b else c
    else return a

/-- Computes an assignment, or else what `other` computes.  The fuel bounds the number of
assignments. -/
def assignment (value : String → Option String) (other : Part) : Nat → Part
  | 0, counts => other counts
  | fuel + 1, counts => do
    match (← get).tokens with
    | .name name :: .sign s :: rest =>
      if s = "=" || (compound? s).isSome then
        modify fun state => { state with tokens := rest }
        let b ← assignment value other fuel counts
        if !counts then return b
        else
          let n ← match compound? s with
            | some op => do binary op (← lookup value name) b
            | none => pure b
          modify fun state => { state with assigned := (name, n) :: state.assigned }
          return n
      else other counts
    | _ => other counts

/-- Computes an expression.  The fuel bounds the depth of parentheses. -/
def expression (value : String → Option String) : Nat → Part
  | 0, _ => throw (.expecting "primary")
  | fuel + 1, counts => do
    let inner := expression value fuel
    let n ← budget
    let conjunction := junction true (ranked (operand value inner n) 7) n
    assignment value (choice (junction false conjunction n) inner n) n counts

/-- The value of an expression, and the variables that it sets, the last one first. -/
def evaluate (value : String → Option String) (text : String) :
    Except Flaw (Int × List (String × Int)) := do
  let ts := tokens (text.length + 1) text.toList
  let (n, state) ← (expression value (ts.length + 1) true).run { tokens := ts }
  if state.tokens.isEmpty then return (n, state.assigned) else .error (.expecting "EOF")

end MutationTesting.Shell.Arithmetic
