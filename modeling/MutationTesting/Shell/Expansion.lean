import MutationTesting.Shell.Arithmetic
import MutationTesting.Shell.Pattern
import MutationTesting.Shell.Subshell

/-!
# Expansion

A word expands to pieces: characters, and ends of fields.  `expandText` makes one text of
them, `expandPattern` a pattern, and `expandWords` parts them into fields at separators and
takes those that are patterns for the files that they are of.
-/

namespace MutationTesting.Shell

/-- A piece of an expanded word. -/
inductive Piece where
  /-- A character; one of a value that is not quoted may be a separator. -/
  | char (glyph : Glyph) (isValue : Bool)
  /-- Says that there is a field, even if nothing is in it. -/
  | some
  /-- The end of a field. -/
  | stop
  deriving DecidableEq, Repr

/-- The pieces of a text. -/
def piecesOf (text : String) (quoted isValue : Bool) : List Piece :=
  let pieces := text.toList.map fun c => Piece.char ⟨c, quoted⟩ isValue
  if quoted then .some :: pieces else pieces

/-- The pieces of texts that are fields of their own. -/
def piecesOfEach (quoted : Bool) : List String → List Piece
  | [] => []
  | [text] => piecesOf text quoted (!quoted)
  | text :: texts => piecesOf text quoted (!quoted) ++ .stop :: piecesOfEach quoted texts

/-- The characters among pieces; what is between fields is a blank. -/
def glyphsOf (pieces : List Piece) : List Glyph :=
  pieces.filterMap fun
    | .char glyph _ => some glyph
    | .some => none
    | .stop => some ⟨' ', true⟩

def textOf (pieces : List Piece) : String := glyphText (glyphsOf pieces)

/-! ### Fields -/

/-- The fields of a word so far, the last one first, and the one that is being read. -/
structure Fields where
  complete : List (List Glyph) := []
  /-- The characters of the field, the last one first. -/
  current : Option (List Glyph) := none
  /-- Whether blanks have just ended a field, so that a separator still belongs to its end. -/
  blank : Bool := false

namespace Fields

def finish (f : Fields) : Fields :=
  { complete := match f.current with
      | some glyphs => glyphs.reverse :: f.complete
      | none => f.complete }

/-- Takes a piece; `separators` are the characters that part fields. -/
def step (separators : List Char) (f : Fields) : Piece → Fields
  | .some => { f with current := some (f.current.getD []), blank := false }
  | .stop => f.finish
  | .char glyph isValue =>
    if isValue && separators.contains glyph.char then
      if [' ', '\t', '\n'].contains glyph.char then
        if f.current.isSome then { f.finish with blank := true } else f
      else if f.current.isNone && f.blank then { f with blank := false }
      else { f with current := some (f.current.getD []) }.finish
    else { f with current := some (glyph :: f.current.getD []), blank := false }

/-- The fields of pieces. -/
def ofPieces (separators : List Char) (pieces : List Piece) : List (List Glyph) :=
  (pieces.foldl (step separators) {}).finish.complete.reverse

end Fields

/-! ### Words -/

section

variable (run : Runner)

/-- The value of a parameter as one text; one that must be set but is not ends the shell. -/
def parameterText (name : String) : Eval (Option String) := do
  let p ← get
  match name with
  | "*" => return some ((String.ofList (p.separators.toList.take 1)).intercalate p.args)
  | "@" => return some (" ".intercalate p.args)
  | name => return p.value? name

/-- Complains that a parameter is not set. -/
def failUnset {α : Type} (name : String) : Eval α := do
  complain s!"{name}: parameter not set"
  throw (.exit 2)

/-- The pieces of the value of a parameter. -/
def parameterPieces (name : String) (quoted : Bool) : Eval (List Piece) := do
  let p ← get
  match name, quoted with
  | "@", _ => return piecesOfEach quoted p.args
  | "*", false => return piecesOfEach false p.args
  | name, quoted =>
    match ← parameterText name with
    | some value => return piecesOf value quoted (!quoted)
    | none =>
      if p.hasOption 'u' && name != "!" then failUnset name
      else return piecesOf "" quoted (!quoted)

/-- The pieces of parts of a word.  The fuel bounds the depth of words in operations. -/
def expandParts : Nat → List Part → Eval (List Piece)
  | 0, _ => return []
  | depth + 1, parts => do
    let pieces ← parts.mapM fun part => do
      match part with
      | .text text quoted => return piecesOf text quoted false
      | .home => do
        return piecesOf (((← get).value? "HOME").getD "~") true false
      | .output body quoted => do
        let text ← captured run (runAll run false body)
        return piecesOf text quoted (!quoted)
      | .arithmetic expression quoted => do
        let text := textOf (← expandParts depth expression)
        let p ← get
        match Arithmetic.evaluate p.value? text with
        | .error flaw => do
          complain (flaw.message text)
          throw (.exit 2)
        | .ok (n, assigned) =>
          for (name, value) in assigned.reverse do assign name (toString value)
          return piecesOf (toString n) quoted (!quoted)
      | .parameter name operation quoted => do
        let value ← parameterText name
        let isThere (empty : Bool) : Bool := value.isSome && !(empty && value == some "")
        let word (parts : List Part) : Eval (List Piece) := do
          return (← expandParts depth parts).map fun
            | .char glyph _ =>
              if quoted then .char { glyph with quoted := true } false
              else .char glyph (!glyph.quoted)
            | piece => piece
        match operation with
        | .value => parameterPieces name quoted
        | .bad => do
          complain "Bad substitution"
          throw (.exit 2)
        | .length => do
          if value.isNone && (← get).hasOption 'u' then failUnset name
          else return piecesOf (toString (value.getD "").length) quoted (!quoted)
        | .orElse empty parts =>
          if isThere empty then parameterPieces name quoted else word parts
        | .andThen empty parts => if isThere empty then word parts else return []
        | .orAssign empty parts =>
          if isThere empty then parameterPieces name quoted
          else if !isName name then do
            complain s!"{name}: bad variable name"
            throw (.exit 2)
          else do
            assign name (textOf (← expandParts depth parts))
            parameterPieces name quoted
        | .orFail empty parts =>
          if isThere empty then parameterPieces name quoted
          else do
            let text := textOf (← expandParts depth parts)
            let text := if parts.isEmpty then
                "parameter not set" ++ if empty then " or null" else ""
              else text
            complain s!"{name}: {text}"
            throw (.exit 2)
        | .trim atEnd longest parts =>
          let pattern := Pattern.ofGlyphs (glyphsOf (← expandParts depth parts))
          match value with
          | none => do
            if (← get).hasOption 'u' then failUnset name else return piecesOf "" quoted (!quoted)
          | some value =>
            let rest := if atEnd then Pattern.trimEnd pattern longest value
              else Pattern.trimStart pattern longest value
            return piecesOf rest quoted (!quoted)
    return pieces.flatten

/-- How deep words in operations may be. -/
def maxWordDepth : Nat := 50

/-- The one text that a word expands to. -/
def expandText (word : Word) : Eval String := do
  let joined := word.map fun
    | .parameter "*" operation false => .parameter "*" operation true
    | part => part
  return textOf (← expandParts run maxWordDepth joined)

/-- The pattern that a word expands to. -/
def expandPattern (word : Word) : Eval Pattern := do
  return Pattern.ofGlyphs (glyphsOf (← expandParts run maxWordDepth word))

/-- The fields that a word expands to. -/
def expandWord (word : Word) : Eval (List String) := do
  let isEmptyList := (← get).args.isEmpty && word.any fun
    | .parameter "@" .value true => true
    | _ => false
  let word := if isEmptyList then word.filter fun
      | .text "" true => false
      | _ => true
    else word
  let pieces ← expandParts run maxWordDepth word
  let p ← get
  let fields := Fields.ofPieces p.separators.toList pieces
  if p.hasOption 'f' then return fields.map glyphText
  else return fields.flatMap (Pattern.files p.disk)

/-- The fields that words expand to. -/
def expandWords (words : List Word) : Eval (List String) := do
  return (← words.mapM (expandWord run)).flatten

end

end MutationTesting.Shell
