import MutationTesting.Language

/-!
# Grammars

All that is particular to a language: the kinds of its syntax nodes that can be
mutated, and the spelling of its operators, literals and comments.
-/

namespace MutationTesting

/-- How a condition is negated. -/
inductive Negation where
  /-- `c` becomes `!(c)`. -/
  | bang
  /-- `c` becomes `not (c)`. -/
  | notKeyword
  /-- The condition has parentheses already: `(c)` becomes `(!(c))`. -/
  | bangInParens
  deriving DecidableEq, Repr

/-- The kinds of node and the spellings of a language. -/
structure Grammar where
  language : Language
  functionKinds : List String
  /-- The kinds of value that turn a variable declarator into a named function. -/
  functionValues : List String
  binaryKinds : List String
  unaryKinds : List String
  integerKinds : List String
  stringKinds : List String
  returnKinds : List String
  ifKinds : List String
  assignmentKinds : List String
  incDecKinds : List String
  /-- The kinds of condition that have no negated form. -/
  unnegatableConditions : List String
  andOp : String
  orOp : String
  notOp : String
  trueLiteral : String
  falseLiteral : String
  nilLiterals : List String
  nonNil : String
  lineComment : String
  /-- Whether the language has a unary plus. -/
  unaryPlus : Bool
  negation : Negation
  deriving Repr

namespace Grammar

/-- The negated form of a condition. -/
def negate (g : Grammar) (condition : String) : String :=
  match g.negation with
  | .bang => "!(" ++ condition ++ ")"
  | .notKeyword => "not (" ++ condition ++ ")"
  | .bangInParens => "(!" ++ condition ++ ")"

/-- What stands in front of a statement that is commented out. -/
def disableMarker (g : Grammar) : String := g.lineComment ++ " MUTANT: "

def isNil (g : Grammar) (text : String) : Bool := g.nilLiterals.contains text

def go : Grammar where
  language := .go
  functionKinds := ["function_declaration", "method_declaration"]
  functionValues := []
  binaryKinds := ["binary_expression"]
  unaryKinds := ["unary_expression"]
  integerKinds := ["int_literal"]
  stringKinds := ["interpreted_string_literal", "raw_string_literal"]
  returnKinds := ["return_statement"]
  ifKinds := ["if_statement"]
  assignmentKinds := ["assignment_statement"]
  incDecKinds := ["inc_statement", "dec_statement"]
  unnegatableConditions := []
  andOp := "&&"
  orOp := "||"
  notOp := "!"
  trueLiteral := "true"
  falseLiteral := "false"
  nilLiterals := ["nil"]
  nonNil := "errors.New(\"mutant\")"
  lineComment := "//"
  unaryPlus := true
  negation := .bang

def rust : Grammar where
  language := .rust
  functionKinds := ["function_item"]
  functionValues := []
  binaryKinds := ["binary_expression"]
  unaryKinds := ["unary_expression"]
  integerKinds := ["integer_literal"]
  stringKinds := ["string_literal", "raw_string_literal"]
  returnKinds := ["return_expression"]
  ifKinds := ["if_expression"]
  assignmentKinds := ["compound_assignment_expr"]
  incDecKinds := []
  unnegatableConditions := ["let_condition", "let_chain"]
  andOp := "&&"
  orOp := "||"
  notOp := "!"
  trueLiteral := "true"
  falseLiteral := "false"
  nilLiterals := ["None"]
  nonNil := "Some(Default::default())"
  lineComment := "//"
  unaryPlus := false
  negation := .bang

def python : Grammar where
  language := .python
  functionKinds := ["function_definition"]
  functionValues := []
  binaryKinds := ["binary_operator", "comparison_operator", "boolean_operator"]
  unaryKinds := ["not_operator", "unary_operator"]
  integerKinds := ["integer"]
  stringKinds := ["string"]
  returnKinds := ["return_statement"]
  ifKinds := ["if_statement"]
  assignmentKinds := ["augmented_assignment"]
  incDecKinds := []
  unnegatableConditions := []
  andOp := "and"
  orOp := "or"
  notOp := "not"
  trueLiteral := "True"
  falseLiteral := "False"
  nilLiterals := ["None"]
  nonNil := "object()"
  lineComment := "#"
  unaryPlus := true
  negation := .notKeyword

/-- The grammar that JavaScript and its dialects share. -/
def javaScriptLike (language : Language) : Grammar where
  language := language
  functionKinds :=
    ["function_declaration", "generator_function_declaration", "method_definition"]
  functionValues :=
    ["arrow_function", "function_expression", "function", "generator_function"]
  binaryKinds := ["binary_expression"]
  unaryKinds := ["unary_expression"]
  integerKinds := ["number"]
  stringKinds := ["string"]
  returnKinds := ["return_statement"]
  ifKinds := ["if_statement"]
  assignmentKinds := ["augmented_assignment_expression"]
  incDecKinds := ["update_expression"]
  unnegatableConditions := []
  andOp := "&&"
  orOp := "||"
  notOp := "!"
  trueLiteral := "true"
  falseLiteral := "false"
  nilLiterals := ["null", "undefined"]
  nonNil := "\x7b\x7d"
  lineComment := "//"
  unaryPlus := true
  negation := .bangInParens

end Grammar

def Language.grammar : Language → Grammar
  | .go => .go
  | .rust => .rust
  | .python => .python
  | language => .javaScriptLike language

theorem Language.language_grammar (language : Language) :
  language.grammar.language = language
  := by
  cases language <;> rfl

end MutationTesting
