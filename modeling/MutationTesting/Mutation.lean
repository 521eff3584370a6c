/-!
# Mutations and their results

A `Mutation` is a defect that could be planted at one place of a file; a `TestResult`
says what the tests made of it.  Kinds, priorities and statuses have names, under which
they are written and read.
-/

namespace MutationTesting

/-- What a mutation changes. -/
inductive MutationKind where
  | arithmeticOperator
  | relationalOperator
  | logicalOperator
  | unaryOperator
  | constant
  | returnValue
  | statementRemoval
  | conditionNegation
  | elseRemoval
  | assignmentOperator
  | incDec
  deriving DecidableEq, Repr

/-- How a mutation turns into mutated text. -/
inductive Strategy where
  /-- A fragment of one line is replaced. -/
  | substitute
  /-- A line is commented out. -/
  | disable
  /-- The source is parsed again and a conditional changed. -/
  | structural
  deriving DecidableEq, Repr

namespace MutationKind

def all : List MutationKind :=
  [.arithmeticOperator, .relationalOperator, .logicalOperator, .unaryOperator, .constant,
    .returnValue, .statementRemoval, .conditionNegation, .elseRemoval, .assignmentOperator,
    .incDec]

def name : MutationKind → String
  | .arithmeticOperator => "arithmetic_operator"
  | .relationalOperator => "relational_operator"
  | .logicalOperator => "logical_operator"
  | .unaryOperator => "unary_operator"
  | .constant => "constant"
  | .returnValue => "return_value"
  | .statementRemoval => "statement_removal"
  | .conditionNegation => "condition_negation"
  | .elseRemoval => "else_removal"
  | .assignmentOperator => "assignment_operator"
  | .incDec => "inc_dec"

def ofName? (text : String) : Option MutationKind := all.find? (·.name == text)

theorem mem_all (kind : MutationKind) :
  kind ∈ all
  := by
  cases kind <;> decide

theorem ofName?_name (kind : MutationKind) :
  ofName? kind.name = some kind
  := by
  cases kind <;> rfl

def unknownMessage (text : String) : String := s!"unknown mutation type: {text}"

def strategy : MutationKind → Strategy
  | .statementRemoval => .disable
  | .conditionNegation | .elseRemoval => .structural
  | _ => .substitute

end MutationKind

/-- How much a surviving mutation should worry. -/
inductive Priority where
  | low | medium | high
  deriving DecidableEq, Repr

namespace Priority

def all : List Priority := [.low, .medium, .high]

def name : Priority → String
  | .low => "low"
  | .medium => "medium"
  | .high => "high"

def ofName? (text : String) : Option Priority := all.find? (·.name == text)

theorem ofName?_name (priority : Priority) :
  ofName? priority.name = some priority
  := by
  cases priority <;> rfl

def unknownMessage (text : String) : String :=
  s!"unknown priority: {text} (expected high, medium or low)"

def rank : Priority → Nat
  | .low => 0
  | .medium => 1
  | .high => 2

/-- Whether a priority is at least `bound`. -/
def atLeast (priority bound : Priority) : Bool := bound.rank ≤ priority.rank

end Priority

/-- The replacement that stands for taking a fragment away. -/
def removalMark : String := "(removed)"

/-- A change that could be made to a text. -/
structure Change where
  kind : MutationKind
  replacement : String
  description : String
  priority : Priority
  deriving DecidableEq, Repr

/-- A change at one place of a file, not yet made. -/
structure Mutation where
  id : String
  file : String
  line : Nat
  column : Nat
  kind : MutationKind
  fragment : String
  mutated : String
  description : String
  priority : Priority
  deriving DecidableEq, Repr

namespace Mutation

def isRemoval (m : Mutation) : Bool := m.mutated == removalMark

/-- The text that takes the place of the fragment. -/
def replacement (m : Mutation) : String := if m.isRemoval then "" else m.mutated

end Mutation

/-- What came of a mutation. -/
inductive Status where
  /-- The tests failed, so they caught the mutant. -/
  | killed
  /-- The tests passed, so the mutant went undetected. -/
  | survived
  | timeout
  /-- The tests could not judge the mutant. -/
  | error
  deriving DecidableEq, Repr

namespace Status

def all : List Status := [.killed, .survived, .timeout, .error]

def name : Status → String
  | .killed => "killed"
  | .survived => "survived"
  | .timeout => "timeout"
  | .error => "error"

def ofName? (text : String) : Option Status := all.find? (·.name == text)

theorem ofName?_name (status : Status) :
  ofName? status.name = some status
  := by
  cases status <;> rfl

end Status

/-- What the tests made of one mutation. -/
structure TestResult where
  mutationId : String
  status : Status
  durationMs : Float
  testOutput : String
  description : String
  file : String
  line : Nat
  kind : Option MutationKind
  diff : String
  deriving Repr

/-- The result of a mutation with nothing measured yet. -/
def TestResult.blank (m : Mutation) (status : Status) : TestResult where
  mutationId := m.id
  status := status
  durationMs := 0
  testOutput := ""
  description := m.description
  file := m.file
  line := m.line
  kind := some m.kind
  diff := ""

end MutationTesting
