import MutationTesting.Language
import MutationTesting.Text.Offset

/-!
# Syntax trees

A `SyntaxNode` is a node of a concrete syntax tree: its kind, its span in bytes, the
fields it fills in its parent, and its children.  A `Parser` turns a text into such a
tree in every case and marks what it could not make sense of; `SyntaxTree.parse`
refuses a tree with such a mark.
-/

namespace MutationTesting

/-- The fields by which a node names its children. -/
inductive Field where
  | name | value | left | right | condition | consequence | alternative
  deriving DecidableEq, Repr

/-- What is said of a node apart from its children. -/
structure NodeInfo where
  kind : String
  named : Bool
  /-- Whether the node or something below it could not be parsed. -/
  hasError : Bool
  isError : Bool
  isMissing : Bool
  start : Nat
  stop : Nat
  fields : List Field
  deriving DecidableEq, Repr

/-- A node of a syntax tree. -/
inductive SyntaxNode where
  | mk (info : NodeInfo) (children : List SyntaxNode)

namespace SyntaxNode

def info : SyntaxNode → NodeInfo
  | mk info _ => info

def children : SyntaxNode → List SyntaxNode
  | mk _ children => children

@[simp] theorem info_mk (info : NodeInfo) (children : List SyntaxNode) :
  (mk info children).info = info
  := rfl

@[simp] theorem children_mk (info : NodeInfo) (children : List SyntaxNode) :
  (mk info children).children = children
  := rfl

def kind (node : SyntaxNode) : String := node.info.kind

def namedChildren (node : SyntaxNode) : List SyntaxNode :=
  node.children.filter (·.info.named)

/-- The children without a name, which are the operators and other fixed tokens. -/
def tokens (node : SyntaxNode) : List SyntaxNode :=
  node.children.filter (!·.info.named)

/-- All children that fill a field. -/
def fillers (node : SyntaxNode) (field : Field) : List SyntaxNode :=
  node.children.filter (·.info.fields.contains field)

/-- The first child that fills a field. -/
def child? (node : SyntaxNode) (field : Field) : Option SyntaxNode :=
  node.children.find? (·.info.fields.contains field)

/-- The text that a node spans. -/
def text (node : SyntaxNode) (source : String) : String :=
  Text.slice source node.info.start node.info.stop

/-- The position of a node's first byte. -/
def position (node : SyntaxNode) (source : String) : Text.Position :=
  Text.positionAt node.info.start source.toList

/-- Whether a node stands for something that could not be parsed. -/
def isBroken (node : SyntaxNode) : Bool := node.info.isError || node.info.isMissing

mutual

/-- The first node that could not be parsed, searched only below nodes that say there is
one; a node that says so without reason is itself the answer. -/
def firstError? : SyntaxNode → Option SyntaxNode
  | mk info children =>
    if !info.hasError then none
    else if info.isError || info.isMissing then some (mk info children)
    else (firstErrorAmong? children).or (some (mk info children))

/-- The first node that could not be parsed in a list of trees. -/
def firstErrorAmong? : List SyntaxNode → Option SyntaxNode
  | [] => none
  | node :: nodes => (firstError? node).or (firstErrorAmong? nodes)

end

end SyntaxNode

/-- A text does not parse; the position is that of the first thing that could not be
made sense of. -/
structure SyntaxError where
  position : Text.Position
  deriving DecidableEq, Repr

def SyntaxError.message (e : SyntaxError) : String :=
  s!"syntax error at line {e.position.line}, column {e.position.column}"

/-- Parses any text; what cannot be parsed is marked in the tree. -/
abbrev Parser := Language → String → SyntaxNode

/-- A text together with its tree. -/
structure SyntaxTree where
  language : Language
  source : String
  root : SyntaxNode

/-- The tree of a text without anything that could not be parsed. -/
def SyntaxTree.parse (parser : Parser) (language : Language) (source : String) :
    Except SyntaxError SyntaxTree :=
  let root := parser language source
  match root.firstError? with
  | some node => .error ⟨node.position source⟩
  | none => .ok ⟨language, source, root⟩

/-- Whether a text parses. -/
def verifySyntax (parser : Parser) (language : Language) (source : String) :
    Except SyntaxError Unit :=
  (SyntaxTree.parse parser language source).map fun _ => ()

end MutationTesting
