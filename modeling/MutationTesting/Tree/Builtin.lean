import MutationTesting.Tree.Indented.Statement
import MutationTesting.Tree.Table

/-!
# The builtin parser

Python sources are parsed here.  Sources in other languages need a table of trees that
another parser has made.
-/

namespace MutationTesting

/-- Parses Python; a source in another language counts as one that cannot be made sense of. -/
def builtinParser : Parser := fun language source =>
  match language with
  | .python => Indented.parse source
  | _ => Indented.broken 0 source.utf8ByteSize

/-- A parser for the texts of a table and, beyond these, for Python. -/
def parserWith (table : TreeTable) : Parser := table.parser builtinParser

end MutationTesting
