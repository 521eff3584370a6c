import MutationTesting.Grammar
import MutationTesting.Tree

/-!
# Walking a syntax tree

`SyntaxTree.walk` shows the nodes of a tree to a visitor, parents before children and
in source order, together with the functions that enclose them.  The visitor keeps a
state and may leave out what is below a node.  One context goes along with the walk: a
node puts onto it what it adds, and takes that away again when it is done.
-/

namespace MutationTesting

namespace Grammar

/-- The name of the function that a node declares. -/
def functionName? (g : Grammar) (source : String) (node : SyntaxNode) : Option String :=
  if g.functionKinds.contains node.kind then (node.child? .name).map (·.text source)
  else if node.kind = "variable_declarator" then do
    let value ← node.child? .value
    if g.functionValues.contains value.kind then (node.child? .name).map (·.text source)
    else none
  else none

end Grammar

/-- What surrounds a node. -/
structure WalkContext where
  /-- The names of the functions around a node, outermost first, with its own when it
  declares one. -/
  functions : List String
  /-- The nodes above a node, innermost first. -/
  ancestors : List SyntaxNode

namespace WalkContext

def top : WalkContext := ⟨[], []⟩

def currentFunction? (ctx : WalkContext) : Option String := ctx.functions.getLast?

/-- Whether a function of this name surrounds the node. -/
def within (ctx : WalkContext) (name : String) : Bool := ctx.functions.contains name

/-- The context of a node that declares a function of this name, if any. -/
def declare (ctx : WalkContext) : Option String → WalkContext
  | none => ctx
  | some name => { ctx with functions := ctx.functions ++ [name] }

/-- The context of the children of a node. -/
def below (ctx : WalkContext) (node : SyntaxNode) : WalkContext :=
  { ctx with ancestors := node :: ctx.ancestors }

/-- The context after the children of a node. -/
def above (ctx : WalkContext) : WalkContext :=
  { ctx with ancestors := ctx.ancestors.tail }

/-- The context after a node that declares a function of this name, if any. -/
def retract (ctx : WalkContext) : Option String → WalkContext
  | none => ctx
  | some _ => { ctx with functions := ctx.functions.dropLast }

end WalkContext

/-- Whether a walk goes on below a node. -/
inductive Walk where
  | descend | skip
  deriving DecidableEq, Repr

/-- A visitor's answer to a node: its new state, and whether to go on below. -/
abbrev Visitor (σ : Type) := σ → SyntaxNode → WalkContext → σ × Walk

namespace SyntaxNode

mutual

/-- Shows a node and what is below it to a visitor, and gives the context back. -/
def tour {σ : Type} (g : Grammar) (source : String) (visit : Visitor σ) (ctx : WalkContext)
    (s : σ) : SyntaxNode → WalkContext × σ
  | mk info children =>
    let name? := g.functionName? source (mk info children)
    let ctx := ctx.declare name?
    match visit s (mk info children) ctx with
    | (s, .skip) => (ctx.retract name?, s)
    | (s, .descend) =>
      let (ctx, s) := tourAll g source visit (ctx.below (mk info children)) s children
      (ctx.above.retract name?, s)

/-- Shows the nodes of a list and what is below them to a visitor, and gives the context back. -/
def tourAll {σ : Type} (g : Grammar) (source : String) (visit : Visitor σ) (ctx : WalkContext)
    (s : σ) : List SyntaxNode → WalkContext × σ
  | [] => (ctx, s)
  | node :: nodes =>
    let (ctx, s) := tour g source visit ctx s node
    tourAll g source visit ctx s nodes

end

end SyntaxNode

/-- Shows every node of a tree to a visitor that may leave out what is below a node. -/
def SyntaxTree.walk {σ : Type} (tree : SyntaxTree) (visit : Visitor σ) (s : σ) : σ :=
  (tree.root.tour tree.language.grammar tree.source visit .top s).2

/-- The names of the functions declared in a tree, in source order. -/
def SyntaxTree.functionNames (tree : SyntaxTree) : List String :=
  tree.walk (fun names node _ =>
    (names ++ (tree.language.grammar.functionName? tree.source node).toList, .descend)) []

namespace Grammar

/-- Whether a string literal is the docstring of a Python module, class or function: it
stands alone as the first statement of its body, so that changing it changes nothing. -/
def isDocstring (g : Grammar) (ctx : WalkContext) : Bool :=
  g.language == .python && match ctx.ancestors with
    | statement :: body :: _ =>
      statement.kind == "expression_statement" && statement.namedChildren.length == 1
        && (body.kind == "block" || body.kind == "module")
        && (body.namedChildren.find? (·.kind != "comment")).any (·.info == statement.info)
    | _ => false

end Grammar

end MutationTesting
