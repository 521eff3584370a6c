import MutationTesting.Tree.Indented.Token

/-!
# Reading tokens

A `Reading` takes tokens from the front of a list and makes something of them, or fails and
takes none.  Nodes are made from their children, which give them their span.
-/

namespace MutationTesting.Indented

/-- Reads a part of a text from the tokens that are left. -/
abbrev Reading := StateT (List Token) Option

/-! ### Nodes -/

/-- A node with children, of which there is at least one. -/
def node (kind : String) (children : List SyntaxNode) : SyntaxNode :=
  .mk { kind := kind, named := true, hasError := false, isError := false, isMissing := false
        start := (children.head?.map (·.info.start)).getD 0
        stop := (children.getLast?.map (·.info.stop)).getD 0
        fields := [] } children

/-- A node as what fills a field of its parent. -/
def filling (field : Field) (n : SyntaxNode) : SyntaxNode :=
  .mk { n.info with fields := [field] } n.children

/-- A node with another kind. -/
def renamed (kind : String) (n : SyntaxNode) : SyntaxNode :=
  .mk { n.info with kind := kind } n.children

namespace Reading

/-! ### Tokens -/

def next? : Reading (Option Token) := do return (← get).head?

/-- Takes the next token. -/
def take : Reading Token := do
  match ← get with
  | [] => failure
  | t :: rest =>
    set rest
    return t

/-- Whether the next token is of a kind. -/
def isKind (kind : TokenKind) : Reading Bool := do return (← next?).any (·.kind = kind)

/-- Whether the next token is a word or symbol with this text. -/
def isNext (text : String) : Reading Bool := do
  return (← next?).any fun t => (t.kind = .word || t.kind = .symbol) && t.text = text

/-- Takes a token of a kind. -/
def takeKind (kind : TokenKind) : Reading Token := do if ← isKind kind then take else failure

/-- The leaf of a token whose kind is its text. -/
def fixed (t : Token) : SyntaxNode := leaf t.text false t.start t.stop

/-- Takes a word or symbol with this text, if it comes next. -/
def accept (text : String) : Reading (Option SyntaxNode) := do
  if ← isNext text then return some (fixed (← take)) else return none

def acceptAny : List String → Reading (Option SyntaxNode)
  | [] => return none
  | text :: texts => do
    match ← accept text with
    | some n => return some n
    | none => acceptAny texts

def expect (text : String) : Reading SyntaxNode := do
  match ← accept text with
  | some n => return n
  | none => failure

/-- The words that are never names. -/
def reserved : List String := [
  "and", "as", "assert", "break", "class", "continue", "def", "del", "elif", "else", "except",
  "finally", "for", "from", "global", "if", "import", "in", "is", "lambda", "nonlocal", "not",
  "or", "pass", "raise", "return", "try", "while", "with", "yield", "True", "False", "None"]

/-- Takes a name. -/
def identifier : Reading SyntaxNode := do
  let t ← takeKind .word
  if reserved.contains t.text then failure else return leaf "identifier" true t.start t.stop

/-- Takes comments, as nodes. -/
def comments : Nat → Reading (List SyntaxNode)
  | 0 => return []
  | fuel + 1 => do
    if ← isKind .comment then
      let t ← take
      return leaf "comment" true t.start t.stop :: (← comments fuel)
    else return []

/-! ### Repetition -/

/-- Reads items with commas between them and perhaps after the last one, as long as items
follow; gives the items and the commas. -/
def separated (item : Reading SyntaxNode) : Nat → Reading (List SyntaxNode)
  | 0 => failure
  | fuel + 1 => do
    let first ← item
    match ← accept "," with
    | none => return [first]
    | some comma =>
      let rest ← (separated item fuel) <|> pure []
      return first :: comma :: rest

/-- Reads operands with operators between them, grouped from the left. -/
def chain (operand : Reading SyntaxNode) (operators : List String) (kind : String) :
    Nat → SyntaxNode → Reading SyntaxNode
  | 0, _ => failure
  | fuel + 1, left => do
    match ← acceptAny operators with
    | none => return left
    | some operator =>
      let right ← operand
      chain operand operators kind fuel
        (node kind [filling .left left, operator, filling .right right])

end Reading

end MutationTesting.Indented
