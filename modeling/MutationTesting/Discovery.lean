import MutationTesting.Operator
import MutationTesting.Procedure
import MutationTesting.Text.Blank
import MutationTesting.Text.Lines
import MutationTesting.Text.Numeral
import MutationTesting.Tree.Walk

/-!
# Discovering mutations

`discover` walks the tree of a source and lists the mutations that can be made, in the
order of the walk and named `M0`, `M1`, ….  The search can be limited to one function
and to a range of lines.  The catalog of a file lists the mutations that can be made to it.
-/

namespace MutationTesting

/-- A range of lines with both ends in it. -/
structure LineRange where
  first : Nat
  last : Nat
  deriving DecidableEq, Repr

namespace LineRange

def contains (r : LineRange) (line : Nat) : Bool := r.first ≤ line && line ≤ r.last

/-- Reads a range written `first-last`. -/
def parse? (text : String) : Option LineRange := do
  let (first, last) ← Text.firstSplit? ['-'] text.toList
  let first ← Text.number? (Text.trim first)
  let last ← Text.number? (Text.trim last)
  if first = 0 || last < first then none else some ⟨first, last⟩

end LineRange

/-- What the search for mutations is limited to. -/
structure Scope where
  /-- Only what is inside a function of this name. -/
  function : Option String
  /-- Only nodes that start on these lines. -/
  lines : Option LineRange
  deriving DecidableEq, Repr

/-- Why no mutations could be listed. -/
inductive DiscoveryError where
  | syntaxError (path : String) (cause : SyntaxError)
  | functionNotFound (name : String) (available : List String)
  | invalidLineRange (text : String)
  deriving DecidableEq, Repr

def DiscoveryError.message : DiscoveryError → String
  | .syntaxError path cause => s!"failed to parse {path}: {cause.message}"
  | .functionNotFound name available =>
    s!"function '{name}' not found. Available: " ++ ", ".intercalate available
  | .invalidLineRange text => s!"invalid line range '{text}' (expected format: 100-200)"

/-- A change offered at a node. -/
structure Offer where
  node : SyntaxNode
  fragment : String
  change : Change

namespace Offer

variable (g : Grammar) (source : String)

/-- Whether a string stands on either side of an operator. -/
def hasStringOperand (node : SyntaxNode) : Bool :=
  [Field.left, Field.right].any fun field =>
    (node.child? field).any fun operand => g.stringKinds.contains operand.kind

/-- The changes to the operator of a binary expression; a plus between strings joins
them and has none. -/
def binaryChanges (node : SyntaxNode) (op : String) : List Change :=
  if Operator.isArithmetic op then
    if op = "+" && hasStringOperand g node then [] else Operator.arithmeticChanges op
  else if Operator.isRelational op then Operator.relationalChanges op
  else Operator.logicalChanges g op

def atToken (token : SyntaxNode) (changes : String → List Change) : List Offer :=
  let op := token.text source
  (changes op).map fun change => ⟨token, op, change⟩

def binary (node : SyntaxNode) : List Offer :=
  node.tokens.flatMap fun token => atToken source token (binaryChanges g node)

/-- The changes to the operator of a unary expression. -/
def unaryChanges (op : String) : List Change :=
  if op = g.notOp then [Operator.negationRemoval]
  else if op = "-" then [Operator.unaryMinusChange g]
  else []

def unary (node : SyntaxNode) : List Offer :=
  match node.children.head? with
  | some token => if token.info.named then [] else atToken source token (unaryChanges g)
  | none => []

def integer (node : SyntaxNode) : List Offer :=
  atToken source node fun value =>
    if Operator.isInteger value then Operator.integerChanges value else []

/-- A string literal over several lines, or a docstring, is left alone. -/
def string (node : SyntaxNode) (ctx : WalkContext) : List Offer :=
  atToken source node fun value =>
    if value.toList.contains '\n' || g.isDocstring ctx then [] else Operator.stringChanges value

/-- The values that a return statement returns. -/
def returnedValues (node : SyntaxNode) : List SyntaxNode :=
  node.namedChildren.flatMap fun child =>
    if child.kind = "expression_list" then child.namedChildren else [child]

/-- The first line of a text without the blanks at its end. -/
def firstLine (text : String) : String :=
  String.ofList (Text.trimEnd ((Text.lines text).headD "").toList)

/-- The values of a return statement can change, and the statement can go. -/
def returned (node : SyntaxNode) : List Offer :=
  let values := (returnedValues node).zipIdx.flatMap fun (value, i) =>
    atToken source value (Operator.returnValueChanges g i)
  values ++ [⟨node, firstLine (node.text source), Operator.statementRemoval⟩]

def negation (node : SyntaxNode) : List Offer :=
  match node.child? .condition with
  | some condition =>
    if g.unnegatableConditions.contains condition.kind then []
    else
      let text := condition.text source
      [⟨node, text, Operator.conditionNegation g text⟩]
  | none => []

/-- A condition can be negated, and an else branch can go. -/
def conditional (node : SyntaxNode) : List Offer :=
  negation g source node
    ++ if (node.child? .alternative).isSome then [⟨node, "else", Operator.elseRemoval⟩] else []

def tokenwise (node : SyntaxNode) (changes : String → List Change) : List Offer :=
  node.tokens.flatMap fun token => atToken source token changes

/-- The changes offered at a node itself. -/
def ofNode (node : SyntaxNode) (ctx : WalkContext) : List Offer :=
  if g.binaryKinds.contains node.kind then binary g source node
  else if g.unaryKinds.contains node.kind then unary g source node
  else if g.integerKinds.contains node.kind then integer source node
  else if g.stringKinds.contains node.kind then string g source node ctx
  else if g.returnKinds.contains node.kind then returned g source node
  else if g.ifKinds.contains node.kind then conditional g source node
  else if g.assignmentKinds.contains node.kind then
    tokenwise source node Operator.assignmentChanges
  else if g.incDecKinds.contains node.kind then tokenwise source node Operator.incDecChanges
  else []

/-- Collects the offers in scope.  Outside the function looked for, other functions are
left out and everything else is searched. -/
def collect (scope : Scope) : Visitor (List Offer) := fun offers node ctx =>
  if scope.function.any (!ctx.within ·) then
    (offers, if (g.functionName? source node).isSome then .skip else .descend)
  else if scope.lines.any (!·.contains (node.position source).line) then (offers, .descend)
  else (offers ++ ofNode g source node ctx, .descend)

/-- The mutation of a file that takes an offer up. -/
def toMutation (file : String) (offer : Offer) (index : Nat) : Mutation where
  id := s!"M{index}"
  file := file
  line := (offer.node.position source).line
  column := (offer.node.position source).column
  kind := offer.change.kind
  fragment := offer.fragment
  mutated := offer.change.replacement
  description := offer.change.description
  priority := offer.change.priority

end Offer

/-- The offers in scope, in the order of the walk. -/
def SyntaxTree.offers (tree : SyntaxTree) (scope : Scope) : List Offer :=
  tree.walk (Offer.collect tree.language.grammar tree.source scope) []

/-- The mutations that can be made to a source, as mutations of `file`. -/
def discover (parser : Parser) (file : String) (language : Language) (source : String)
    (scope : Scope) : Except DiscoveryError (List Mutation) :=
  match SyntaxTree.parse parser language source with
  | .error cause => .error (.syntaxError file cause)
  | .ok tree =>
    let catalog :=
      (tree.offers scope).zipIdx.map fun (offer, i) => offer.toMutation source file i
    match scope.function with
    | none => .ok catalog
    | some name =>
      let available := tree.functionNames
      if available.contains name then .ok catalog else .error (.functionNotFound name available)

/-- The names of the functions declared in a source, in source order. -/
def listFunctions (parser : Parser) (language : Language) (source : String) :
    Except SyntaxError (List String) :=
  (SyntaxTree.parse parser language source).map (·.functionNames)

/-! ### Catalogs of files -/

/-- Why a file has no catalog. -/
inductive GenerationError where
  | unsupportedLanguage (path : String)
  | unreadable (path : String) (cause : FileError)
  | undiscovered (cause : DiscoveryError)
  deriving DecidableEq, Repr

def GenerationError.message : GenerationError → String
  | .unsupportedLanguage path =>
    s!"unsupported file type: {path}. Supported: .go, .py, .rs, .js, .ts, .tsx, .jsx"
  | .unreadable path cause => s!"failed to read {path}: {cause.message}"
  | .undiscovered cause => cause.message

/-- Lists the mutations that can be made to a file. -/
def generate (parser : Parser) (path : String) (scope : Scope) :
    Procedure (Except GenerationError (List Mutation)) := do
  match Language.ofPath? path with
  | none => return .error (.unsupportedLanguage path)
  | some language =>
    match ← Procedure.readText path with
    | .error e => return .error (.unreadable path e)
    | .ok source =>
      return (discover parser path language source scope).mapError .undiscovered

end MutationTesting
