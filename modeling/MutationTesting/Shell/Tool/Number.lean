import MutationTesting.Shell.Arithmetic
import MutationTesting.Shell.Tool
import MutationTesting.Text.Regex.Match

/-!
# Numbers and expressions

`seq` counts, `factor` parts numbers into primes, `sleep` waits, and `expr` computes from words
that are numbers, texts and operators.
-/

namespace MutationTesting.Shell

/-! ### Counting -/

/-- A decimal number as a whole number and the number of its decimal places. -/
structure Fixed where
  value : Int
  places : Nat
  deriving DecidableEq, Repr

/-- Reads a decimal number. -/
def Fixed.ofText? (text : String) : Option Fixed :=
  let (negative, cs) := match text.toList with
    | '-' :: cs => (true, cs)
    | '+' :: cs => (false, cs)
    | cs => (false, cs)
  let whole := cs.takeWhile Text.isDigit
  let places := match cs.drop whole.length with
    | '.' :: rest => some rest
    | [] => some []
    | _ => none
  match places with
  | none => none
  | some places =>
    if !places.all Text.isDigit || (whole.isEmpty && places.isEmpty) then none
    else
      let n : Int := Text.digitsValue (whole ++ places)
      some ⟨if negative then -n else n, places.length⟩

/-- The number with more places. -/
def Fixed.scaledTo (f : Fixed) (places : Nat) : Int := f.value * Nat.pow 10 (places - f.places)

/-- A number with so many places as a text. -/
def fixedText (places : Nat) (n : Int) : String :=
  let digits := padLeft (places + 1) '0' (toString n.natAbs)
  let whole := String.ofList (digits.toList.take (digits.length - places))
  let fraction := String.ofList (digits.toList.drop (digits.length - places))
  (if n < 0 then "-" else "") ++ if places = 0 then whole else whole ++ "." ++ fraction

/-- The number of steps from one number to another one. -/
def stepCount (first step last : Int) : Nat :=
  if step = 0 then 0
  else if 0 < step then (Int.fdiv (last - first) step + 1).toNat
  else (Int.fdiv (first - last) (-step) + 1).toNat

/-- Prints numbers in equal steps. -/
def seq : Tool := fun c =>
  let isNumber (arg : String) : Bool := (Fixed.ofText? arg).isSome
  let options := c.args.takeWhile fun arg => arg.startsWith "-" && !isNumber arg
  let rest := c.args.drop options.length
  let takesValue := match options.getLast? with
    | some last => ["-s", "-f", "--separator", "--format"].contains last
    | none => false
  let (optionArgs, operands) := if takesValue then (options ++ rest.take 1, rest.drop 1)
    else (options, rest)
  let table : OptionTable := { plain := "w", valued := "sf", long := [
    ("separator", 's'), ("format", 'f'), ("equal-width", 'w')] }
  { c with args := optionArgs }.withOptions table 1 fun o =>
    match operands.find? fun arg => !isNumber arg with
    | some arg => c.misused 1 s!"invalid floating point argument: '{arg}'"
    | none =>
      let one : Fixed := ⟨1, 0⟩
      let count (first step last : Fixed) (written : String) : ToolResult :=
        if step.value = 0 then c.misused 1 s!"invalid Zero increment value: '{written}'"
        else
          let places := max first.places step.places
          let wide := max places last.places
          let a := first.scaledTo wide
          let s := step.scaledTo wide
          let shown (n : Int) : String :=
            fixedText places (Int.fdiv n (Nat.pow 10 (wide - places)))
          let values := (List.range (stepCount a s (last.scaledTo wide))).map fun (i : Nat) =>
            shown (a + s * i)
          let width := (values.map String.length).foldl max 0
          let padded (text : String) : String :=
            if text.startsWith "-" then
              "-" ++ padLeft (width - 1) '0' (String.ofList (text.toList.drop 1))
            else padLeft width '0' text
          let values := if o.has 'w' then values.map padded else values
          let separator := (o.value? 's').getD "\n"
          c.prints (if values.isEmpty then "" else separator.intercalate values ++ "\n")
      match operands.filterMap Fixed.ofText? with
      | [last] => count one one last "1"
      | [first, last] => count first one last "1"
      | [first, step, last] => count first step last ((operands[1]?).getD "")
      | [] => c.misused 1 "missing operand"
      | _ => c.misused 1 ("extra operand '" ++ (operands[3]?).getD "" ++ "'")

/-- The prime factors of a number, from a divisor on.  The fuel bounds the number of steps. -/
def factorsFrom : Nat → Nat → Nat → List Nat
  | 0, _, n => [n]
  | fuel + 1, d, n =>
    if n < 2 then []
    else if n < d * d then [n]
    else if n % d = 0 then d :: factorsFrom fuel d (n / d)
    else factorsFrom fuel (d + 1) n

/-- Prints numbers with their prime factors. -/
def factor : Tool := fun c =>
  let args := if c.args.isEmpty then c.input.toList.splitOn '\n' |>.map String.ofList else c.args
  let rows := (args.filter (!·.isEmpty)).map fun arg =>
    match Text.digits? arg.toList with
    | some n => s!"{n}:" ++ String.join ((factorsFrom 100000 2 n).map fun p => s!" {p}") ++ "\n"
    | none => ""
  { c.prints (String.join rows) with appetite := if c.args.isEmpty then .all else .none }

/-! ### Waiting -/

/-- The nanoseconds of a written time, which may have a decimal point and a unit. -/
def sleepTime? (text : String) : Option Nat := do
  let cs := text.toList
  let (cs, unit) := match cs.getLast? with
    | some 's' => (cs.dropLast, 1)
    | some 'm' => (cs.dropLast, 60)
    | some 'h' => (cs.dropLast, 3600)
    | some 'd' => (cs.dropLast, 86400)
    | _ => (cs, 1)
  if cs == "infinity".toList || cs == "inf".toList then return 1000000000000000000
  let whole := cs.takeWhile (· != '.')
  let fraction := (cs.dropWhile (· != '.')).drop 1
  if (whole ++ fraction).isEmpty || !(whole ++ fraction).all Text.isDigit then none
  else
    let nanos := (fraction ++ List.replicate 9 '0').take 9
    return (Text.digitsValue whole * 1000000000 + Text.digitsValue nanos) * unit

/-- Lets time go by. -/
def sleep : Tool := fun c =>
  match c.args.filter (· != "--") with
  | [] => c.misused 1 "missing operand"
  | args =>
    match args.filter fun arg => (sleepTime? arg).isNone with
    | [] => { disk := c.disk, delay := total (args.filterMap sleepTime?) }
    | wrong =>
      { disk := c.disk, status := 1
        err := String.join (wrong.map fun arg => c.message s!"invalid time interval '{arg}'")
          ++ s!"Try '{c.name} --help' for more information.\n" }

/-! ### Expressions -/

namespace WordExpression

/-- Why words are no expression. -/
inductive Flaw where
  | missingAfter (word : String)
  | unexpected (word : String)
  | expectedClosing (word : Option String)
  | noInteger
  | zeroDivision
  | badPattern (text : String)
  deriving DecidableEq, Repr

def Flaw.message : Flaw → String
  | .missingAfter word => s!"syntax error: missing argument after '{word}'"
  | .unexpected word => s!"syntax error: unexpected argument '{word}'"
  | .expectedClosing none => "syntax error: expecting ')'"
  | .expectedClosing (some word) => s!"syntax error: expecting ')' instead of '{word}'"
  | .noInteger => "non-integer argument"
  | .zeroDivision => "division by zero"
  | .badPattern text => text

/-- The words that are left, and the one before them. -/
structure State where
  words : List String
  before : String := ""

/-- Reads a part of an expression from the words that are left. -/
abbrev Reading := StateT State (Except Flaw)

/-- A whole number in decimal, with or without a sign. -/
def integer? (text : String) : Option Int :=
  let digits? (cs : List Char) : Option Nat :=
    if cs.isEmpty || !cs.all Text.isDigit then none else some (Text.digitsValue cs)
  match text.toList with
  | '-' :: cs => (digits? cs).map fun n => -(n : Int)
  | cs => (digits? cs).map fun n => (n : Int)

def integer (text : String) : Reading Int :=
  match integer? text with
  | some n => return n
  | none => throw .noInteger

/-- Whether a value counts as false. -/
def isNull (text : String) : Bool :=
  text.isEmpty || (integer? text).any (· = 0)

def next? : Reading (Option String) := do return (← get).words.head?

def take : Reading Unit := modify fun s => ⟨s.words.tail, s.words.headD s.before⟩

/-- Takes a word off that must be there. -/
def word : Reading String := do
  match ← next? with
  | some w =>
    take
    return w
  | none => throw (.missingAfter (← get).before)

/-- What a text matches of an expression from its start: a group if it has one, and else the
number of characters. -/
def matched (text expression : String) : Reading String :=
  match Text.Regex.parse .basic expression.toList with
  | .error flaw => throw (.badPattern flaw.message)
  | .ok r =>
    let cs := text.toList
    let hasGroup := r.hasGroup
    match Text.Regex.matchAt r.compile cs 0 none cs with
    | none => return if hasGroup then "" else "0"
    | some found =>
      if hasGroup then
        return String.ofList ((Text.Regex.marked? found.marks 1 cs).getD [])
      else return toString found.stop

/-- Reads an operand, given a way to read what is in parentheses. -/
def operand (inner : Reading String) : Nat → Reading String
  | 0 => word
  | fuel + 1 => do
    match ← next? with
    | some "(" => do
      take
      let value ← inner
      match ← next? with
      | some ")" => do
        take
        return value
      | other => throw (.expectedClosing other)
    | some ")" => throw (.unexpected ")")
    | some "+" => do
      take
      word
    | some "length" => do
      take
      return toString (← operand inner fuel).length
    | some "match" => do
      take
      let text ← operand inner fuel
      matched text (← operand inner fuel)
    | some "index" => do
      take
      let text ← operand inner fuel
      let chars := (← operand inner fuel).toList
      return toString (((text.toList.findIdx? chars.contains).map (· + 1)).getD 0)
    | some "substr" => do
      take
      let text ← operand inner fuel
      let first ← operand inner fuel
      let count ← operand inner fuel
      match integer? first, integer? count with
      | some i, some n =>
        if i ≤ 0 || n ≤ 0 then return ""
        else return String.ofList ((text.toList.drop (i - 1).toNat).take n.toNat)
      | _, _ => return ""
    | _ => word

/-- Computes with a binary operator. -/
def apply (op a b : String) : Reading String := do
  let truth (b : Bool) : String := if b then "1" else "0"
  let ordered (test : Ordering → Bool) : String :=
    match integer? a, integer? b with
    | some x, some y => truth (test (compare x y))
    | _, _ => truth (test (compare a.toList b.toList))
  match op with
  | "|" => return if !isNull a then a else if isNull b then "0" else b
  | "&" => return if isNull a || isNull b then "0" else a
  | "=" | "==" => return ordered (· == .eq)
  | "!=" => return ordered (· != .eq)
  | "<" => return ordered (· == .lt)
  | "<=" => return ordered (· != .gt)
  | ">" => return ordered (· == .gt)
  | ">=" => return ordered (· != .lt)
  | ":" => matched a b
  | op => do
    let x ← integer a
    let y ← integer b
    match op with
    | "+" => return toString (x + y)
    | "-" => return toString (x - y)
    | "*" => return toString (x * y)
    | "/" => if y = 0 then throw .zeroDivision else return toString (Int.tdiv x y)
    | _ => if y = 0 then throw .zeroDivision else return toString (Int.tmod x y)

/-- The binary operators, those that bind least tightly first. -/
def levels : List (List String) := [
  ["|"], ["&"], ["=", "==", "!=", "<", "<=", ">", ">="], ["+", "-"], ["*", "/", "%"], [":"]]

/-- Goes on with operators of a level.  The fuel bounds their number. -/
def operators (tighter : Reading String) (level : List String) : Nat → String → Reading String
  | 0, a => return a
  | fuel + 1, a => do
    match ← next? with
    | some op =>
      if level.contains op then
        take
        let b ← tighter
        operators tighter level fuel (← apply op a b)
      else return a
    | none => return a

/-- Reads an expression of the operators of some levels. -/
def leveled (operand : Reading String) (fuel : Nat) : List (List String) → Reading String
  | [] => operand
  | level :: levels => do
    let tighter := leveled operand fuel levels
    operators tighter level fuel (← tighter)

/-- Reads an expression.  The fuel bounds the depth of parentheses. -/
def expression (count : Nat) : Nat → Reading String
  | 0 => word
  | fuel + 1 => leveled (operand (expression count fuel) count) count levels

/-- The value of an expression. -/
def evaluate (words : List String) : Except Flaw String := do
  let n := words.length + 1
  let (value, rest) ← (expression n n).run { words := words }
  match rest.words with
  | [] => return value
  | w :: _ => .error (.unexpected w)

end WordExpression

/-- Prints the value of an expression. -/
def expr : Tool := fun c =>
  let args := if c.args.head? = some "--" then c.args.tail else c.args
  if args.isEmpty then c.misused 2 "missing operand"
  else match WordExpression.evaluate args with
    | .error flaw => c.fails 2 flaw.message
    | .ok value =>
      let status := if WordExpression.isNull value then 1 else 0
      { disk := c.disk, out := value ++ "\n", status := status }

end MutationTesting.Shell
