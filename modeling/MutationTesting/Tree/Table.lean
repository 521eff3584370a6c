import MutationTesting.Json.Number
import MutationTesting.Tree

/-!
# Tables of syntax trees

A `TreeTable` holds texts with the trees that some parser made of them, and is itself a parser
for these texts.  A tree is written as rows, one for each node with its parent before it and
its number of children at its end.
-/

namespace MutationTesting

/-- A text in a language, with its tree. -/
structure ParsedText where
  language : Language
  source : String
  root : SyntaxNode

/-- Texts with what reading them gave. -/
abbrev TreeTable := List ParsedText

namespace TreeTable

/-- The tree of a text that is in the table; for other texts another parser is asked. -/
def parser (table : TreeTable) (other : Parser) : Parser := fun language source =>
  match table.find? fun p => p.language = language && p.source == source with
  | some p => p.root
  | none => other language source

/-! ### Reading -/

def field? : String → Option Field
  | "name" => some .name
  | "value" => some .value
  | "left" => some .left
  | "right" => some .right
  | "condition" => some .condition
  | "consequence" => some .consequence
  | "alternative" => some .alternative
  | _ => none

/-- Reads a row: the kind of a node, its flags, its span, its fields with commas between them,
and its number of children. -/
def row? : Json → Option (NodeInfo × Nat)
  | .array [.string kind, flags, start, stop, .string fields, count] => do
    let flags ← Json.natural? flags
    let info : NodeInfo := {
      kind := kind
      named := flags.testBit 0
      hasError := flags.testBit 1
      isError := flags.testBit 2
      isMissing := flags.testBit 3
      start := ← Json.natural? start
      stop := ← Json.natural? stop
      fields := (fields.splitOn ",").filterMap field? }
    return (info, ← Json.natural? count)
  | _ => none

/-- The trees that a list of rows holds. -/
def forest? : List (NodeInfo × Nat) → Option (List SyntaxNode)
  | [] => some []
  | (info, count) :: rows => do
    let nodes ← forest? rows
    if nodes.length < count then none
    else return .mk info (nodes.take count) :: nodes.drop count

/-- Reads a text with its tree. -/
def parsed? (json : Json) : Option ParsedText := do
  let .string language ← json.field? "language" | none
  let .string source ← json.field? "text" | none
  let .array rows ← json.field? "nodes" | none
  let [root] ← forest? (← rows.mapM row?) | none
  return ⟨← Language.ofName? language, source, root⟩

/-- Reads a table; what is no tree in it is left out. -/
def ofJson : Json → TreeTable
  | .array entries => entries.filterMap parsed?
  | _ => []

end TreeTable

end MutationTesting
