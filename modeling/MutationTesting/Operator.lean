import MutationTesting.Grammar
import MutationTesting.Mutation
import MutationTesting.Text.Search

/-!
# The table of changes

For every operator, literal and statement that can be mutated, the changes that are
made to it, in a fixed order.  The integer and string literals that take part are
told by `isInteger` and `isEmptyString`.
-/

namespace MutationTesting.Operator

/-! ### Operators -/

def arithmetic : List String := ["+", "-", "*", "/", "%"]

def isArithmetic (op : String) : Bool := arithmetic.contains op

def changeText (op other : String) : String := s!"Change {op} to {other}"

/-- An arithmetic operator changes to every other one. -/
def arithmeticChanges (op : String) : List Change :=
  if isArithmetic op then
    (arithmetic.filter (· != op)).map fun other =>
      ⟨.arithmeticOperator, other, changeText op other, .high⟩
  else []

/-- The relational operators that one is confused with at a boundary. -/
def relationalAlternatives : String → List String
  | "<" => ["<=", ">", ">=", "==", "!="]
  | ">" => [">=", "<", "<=", "==", "!="]
  | "<=" => ["<", ">=", ">", "==", "!="]
  | ">=" => [">", "<=", "<", "==", "!="]
  | "==" => ["!=", "<", ">"]
  | "!=" => ["=="]
  | "===" => ["!=="]
  | "!==" => ["==="]
  | _ => []

def isRelational (op : String) : Bool := !(relationalAlternatives op).isEmpty

def relationalChanges (op : String) : List Change :=
  (relationalAlternatives op).map fun other =>
    ⟨.relationalOperator, other, changeText op other ++ " (boundary)", .high⟩

/-- The operator that a logical operator is swapped for. -/
def logicalPartner? (g : Grammar) (op : String) : Option String :=
  if op = g.andOp then some g.orOp else if op = g.orOp then some g.andOp else none

def logicalChanges (g : Grammar) (op : String) : List Change :=
  (logicalPartner? g op).toList.map fun other =>
    ⟨.logicalOperator, other, changeText op other, .high⟩

/-- A negation is taken away. -/
def negationRemoval : Change :=
  ⟨.unaryOperator, removalMark, "Remove negation operator", .high⟩

/-- A unary minus becomes a plus, or goes where the language has no unary plus. -/
def unaryMinusChange (g : Grammar) : Change :=
  if g.unaryPlus then ⟨.unaryOperator, "+", "Change unary minus to plus", .medium⟩
  else ⟨.unaryOperator, removalMark, "Remove unary minus", .medium⟩

def assignmentPartner? : String → Option String
  | "+=" => some "-="
  | "-=" => some "+="
  | _ => none

def assignmentChanges (op : String) : List Change :=
  (assignmentPartner? op).toList.map fun other =>
    ⟨.assignmentOperator, other, changeText op other, .medium⟩

def incDecPartner? : String → Option String
  | "++" => some "--"
  | "--" => some "++"
  | _ => none

def incDecChanges (op : String) : List Change :=
  (incDecPartner? op).toList.map fun other => ⟨.incDec, other, changeText op other, .high⟩

/-! ### Literals -/

def asciiLower (c : Char) : Char :=
  if 'A' ≤ c && c ≤ 'Z' then Char.ofNat (c.toNat + 32) else c

/-- Whether a lower-case character is a digit in `radix`. -/
def isDigitOf (radix : Nat) (c : Char) : Bool :=
  if '0' ≤ c && c ≤ '9' then c.toNat - '0'.toNat < radix
  else if 'a' ≤ c && c ≤ 'z' then c.toNat - 'a'.toNat + 10 < radix
  else false

/-- The radix of a lower-case integer literal, and the literal without its radix mark. -/
def radixOf : List Char → Nat × List Char
  | '0' :: 'x' :: rest => (16, rest)
  | '0' :: 'o' :: rest => (8, rest)
  | '0' :: 'b' :: rest => (2, rest)
  | cs => (10, cs)

def integerSuffixes : List String :=
  ["u8", "u16", "u32", "u64", "u128", "usize", "i8", "i16", "i32", "i64", "i128", "isize", "n"]

/-- Decimal, hexadecimal, octal or binary digits with `_` between them and an optional
type suffix.  A dot makes the text no integer. -/
def isInteger (text : String) : Bool :=
  if text.toList.contains '.' then false
  else
    let (radix, digits) := radixOf (text.toList.map asciiLower)
    let inBody (c : Char) : Bool := c == '_' || isDigitOf radix c
    let suffix := String.ofList (digits.dropWhile inBody)
    (digits.head?.any (isDigitOf radix)) && (suffix.isEmpty || integerSuffixes.contains suffix)

/-- Zero and one are swapped; every other integer grows by one. -/
def integerChanges (value : String) : List Change :=
  if value = "0" then [⟨.constant, "1", changeText "0" "1", .high⟩]
  else if value = "1" then [⟨.constant, "0", changeText "1" "0", .high⟩]
  else [⟨.constant, s!"({value} + 1)", s!"Off-by-one: {value} → {value} + 1", .medium⟩]

def isAsciiLetter (c : Char) : Bool := ('a' ≤ c && c ≤ 'z') || ('A' ≤ c && c ≤ 'Z')

def isQuote (c : Char) : Bool := c == '"' || c == '\x27' || c == '\x60'

/-- Whether a string literal has nothing between its quotes, whatever letters and hash
signs stand around them. -/
def isEmptyString (text : String) : Bool :=
  let bare := (text.toList.dropWhile isAsciiLetter).dropWhile (· == '#')
  let bare := (bare.reverse.dropWhile (· == '#')).reverse
  !bare.isEmpty && bare.all isQuote

/-- A string literal that is not empty becomes the empty one of its class. -/
def stringChanges (text : String) : List Change :=
  if isEmptyString text then []
  else
    let bytes := text.toList.head?.any fun c => c == 'b' || c == 'B'
    [⟨.constant, if bytes then "b\"\"" else "\"\"", "Change string to empty", .medium⟩]

/-! ### Statements -/

/-- What a returned literal is exchanged for. -/
def returnPartner? (g : Grammar) (value : String) : Option String :=
  if value = g.trueLiteral then some g.falseLiteral
  else if value = g.falseLiteral then some g.trueLiteral
  else if g.isNil value then some g.nonNil
  else none

/-- The changes to the value returned at place `index`. -/
def returnValueChanges (g : Grammar) (index : Nat) (value : String) : List Change :=
  (returnPartner? g value).toList.map fun other =>
    ⟨.returnValue, other, s!"Change return value {index}: {value} → {other}", .high⟩

def statementRemoval : Change :=
  ⟨.statementRemoval, removalMark, "Remove return statement", .medium⟩

def conditionNegation (g : Grammar) (condition : String) : Change :=
  ⟨.conditionNegation, g.negate condition, "Negate if condition", .high⟩

def elseRemoval : Change := ⟨.elseRemoval, removalMark, "Remove else branch", .medium⟩

end MutationTesting.Operator
