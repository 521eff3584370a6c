import MutationTesting.Mutation
import MutationTesting.Text.Blank
import MutationTesting.Text.Lines
import MutationTesting.Text.Quoted
import MutationTesting.Text.Search
import MutationTesting.Tree.Edit
import MutationTesting.Tree.Walk

/-!
# Planting a mutation

`Mutation.apply` makes a mutation in the text of its file and `Mutation.revert` undoes
it where a text alone can tell how.  A fragment is replaced on its line, a return
statement is commented out, and a conditional is changed through a fresh parse.
-/

namespace MutationTesting

/-- Why a mutation cannot be made in a text. -/
inductive PlantingError where
  | lineOutOfRange (line lines : Nat)
  | anchorNotFound (fragment : String) (line : Nat)
  | noConditional (line : Nat)
  | noElseBranch (line : Nat)
  | notNegatable (line : Nat)
  | unsupportedLanguage (file : String)
  | syntaxError (cause : SyntaxError)
  deriving DecidableEq, Repr

def PlantingError.message : PlantingError → String
  | .lineOutOfRange line lines => s!"line {line} out of range (file has {lines} lines)"
  | .anchorNotFound fragment line =>
    s!"original text {Text.quote fragment} not found in line {line}"
  | .noConditional line => s!"conditional statement not found at line {line}"
  | .noElseBranch line => s!"conditional statement at line {line} has no else branch"
  | .notNegatable line => s!"condition at line {line} cannot be negated"
  | .unsupportedLanguage file => s!"unsupported file type for structural mutation: {file}"
  | .syntaxError cause => s!"source does not parse: {cause.message}"

namespace Planting

/-- Changes one line of a source, counted from 1. -/
def onLine (source : String) (line : Nat)
    (change : List Char → Except PlantingError (List Char)) :
    Except PlantingError String :=
  let lines := Text.splitLines source.toList
  if line = 0 then .error (.lineOutOfRange line lines.length)
  else match lines[line - 1]? with
    | none => .error (.lineOutOfRange line lines.length)
    | some text =>
      (change text).map fun text =>
        String.ofList (Text.joinLines (lines.set (line - 1) text))

/-! ### Substitution -/

/-- The texts of a line before and after `needle` where it starts at a column. -/
def splitAtColumn? (column : Nat) (needle text : List Char) :
    Option (List Char × List Char) := do
  if column = 0 then none
  let (before, rest) ← Text.cut? (column - 1) text
  let after ← Text.afterStart? needle rest
  return (before, after)

/-- The texts of a line before and after `needle`: at the column if it stands there,
else at its first occurrence.  An empty needle stands only at the column. -/
def locate? (column : Nat) (needle text : List Char) : Option (List Char × List Char) :=
  match splitAtColumn? column needle text with
  | some parts => some parts
  | none => if needle.isEmpty then none else Text.firstSplit? needle text

/-- Replaces `fragment` on one line of a source and nowhere else. -/
def substitute (source : String) (line column : Nat) (fragment replacement : String) :
    Except PlantingError String :=
  onLine source line fun text =>
    match locate? column fragment.toList text with
    | some (before, after) => .ok (before ++ replacement.toList ++ after)
    | none => .error (.anchorNotFound fragment line)

/-! ### Commenting out -/

/-- Puts the disable marker after the indentation of a line that holds the fragment. -/
def disable (g : Grammar) (m : Mutation) (source : String) : Except PlantingError String :=
  onLine source m.line fun text =>
    let anchor := Text.trim m.fragment.toList
    if anchor.isEmpty || !Text.occursIn anchor text then
      .error (.anchorNotFound m.fragment m.line)
    else .ok (Text.indent text ++ g.disableMarker.toList ++ Text.trimStart text)

/-- Takes the disable marker after the indentation of a line away. -/
def enable (g : Grammar) (m : Mutation) (source : String) : Except PlantingError String :=
  onLine source m.line fun text =>
    match Text.afterStart? g.disableMarker.toList (Text.trimStart text) with
    | some rest => .ok (Text.indent text ++ rest)
    | none => .error (.anchorNotFound g.disableMarker m.line)

/-! ### Conditionals -/

/-- Collects the conditionals that start on a line; what starts below it is left out. -/
def conditionalsOn (g : Grammar) (source : String) (line : Nat) : Visitor (List SyntaxNode) :=
  fun found node _ =>
    let at_ := (node.position source).line
    if line < at_ then (found, .skip)
    else if at_ = line && g.ifKinds.contains node.kind then (found ++ [node], .descend)
    else (found, .descend)

/-- The conditional that starts at a position, else the first one on its line. -/
def findConditional? (tree : SyntaxTree) (at_ : Text.Position) : Option SyntaxNode :=
  let found := tree.walk (conditionalsOn tree.language.grammar tree.source at_.line) []
  (found.find? fun node => node.position tree.source == at_).or found.head?

/-- Everything from the end of the consequence to the end of the last alternative goes. -/
def elseRemovalEdit (conditional : SyntaxNode) (line : Nat) : Except PlantingError Edit :=
  match conditional.child? .consequence, (conditional.fillers .alternative).getLast? with
  | some consequence, some last => .ok (.delete consequence.info.stop last.info.stop)
  | _, _ => .error (.noElseBranch line)

/-- The condition becomes its negation, if it is still the one recorded. -/
def negationEdit (g : Grammar) (source : String) (conditional : SyntaxNode) (m : Mutation) :
    Except PlantingError Edit :=
  match conditional.child? .condition with
  | none => .error (.noConditional m.line)
  | some condition =>
    if g.unnegatableConditions.contains condition.kind then .error (.notNegatable m.line)
    else
      let text := condition.text source
      if text = m.fragment then .ok (.replace condition (g.negate text))
      else .error (.anchorNotFound m.fragment m.line)

/-- Changes the conditional of a mutation in a source that parses. -/
def transform (parser : Parser) (language : Language) (m : Mutation) (source : String) :
    Except PlantingError String := do
  match SyntaxTree.parse parser language source with
  | .error cause => .error (.syntaxError cause)
  | .ok tree =>
    match findConditional? tree ⟨m.line, m.column⟩ with
    | none => .error (.noConditional m.line)
    | some conditional =>
      let edit ←
        if m.kind = .elseRemoval then elseRemovalEdit conditional m.line
        else negationEdit language.grammar source conditional m
      return Edit.render source [edit]

end Planting

namespace Mutation

/-- The language of the file that a mutation belongs to. -/
def language (m : Mutation) : Except PlantingError Language :=
  match Language.ofPath? m.file with
  | some language => .ok language
  | none => .error (.unsupportedLanguage m.file)

/-- Makes a mutation in the text of its file. -/
def apply (parser : Parser) (m : Mutation) (source : String) : Except PlantingError String :=
  match m.kind.strategy with
  | .substitute => Planting.substitute source m.line m.column m.fragment m.replacement
  | .disable => do Planting.disable (← m.language).grammar m source
  | .structural => do Planting.transform parser (← m.language) m source

/-- Undoes a mutation in the mutated text; a changed conditional cannot be undone. -/
def revert (m : Mutation) (mutated : String) : Option (Except PlantingError String) :=
  match m.kind.strategy with
  | .substitute =>
    some (Planting.substitute mutated m.line m.column m.replacement m.fragment)
  | .disable => some do Planting.enable (← m.language).grammar m mutated
  | .structural => none

/-- Whether a mutated text still parses; a file of no known language always does. -/
def verify (parser : Parser) (m : Mutation) (mutated : String) : Except SyntaxError Unit :=
  match Language.ofPath? m.file with
  | some language => verifySyntax parser language mutated
  | none => .ok ()

end Mutation

end MutationTesting
