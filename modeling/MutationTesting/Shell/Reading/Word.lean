import MutationTesting.Shell.Reading

/-!
# Reading words

`Word.read` reads a word with its quotes and expansions.  Commands inside of a word are read
by a computation that is given to it.
-/

namespace MutationTesting.Shell

/-- Reads commands up to a token that ends them; says whether there may be none. -/
abbrev ReadCommands := Bool → Reading (List Command)

namespace Word

open Reading

/-- In what surroundings a part of a word stands. -/
inductive Place where
  | plain
  | quoted
  /-- The word of an operation in braces, inside of quotes or not. -/
  | braces (quoted : Bool)
  /-- An arithmetic expression inside of so many parentheses. -/
  | arithmetic (depth : Nat)
  | document
  deriving DecidableEq, Repr

/-- Whether characters at a place count as quoted. -/
def Place.isQuoted : Place → Bool
  | .plain => false
  | .quoted | .arithmetic _ | .document => true
  | .braces inQuotes => inQuotes

/-- The characters that end a word. -/
def endsWord (c : Char) : Bool := " \t\n;&|()<>".toList.contains c

/-- Parameters whose name is one sign. -/
def isSpecial (c : Char) : Bool := "@*#?$!-".toList.contains c

def isDigit (c : Char) : Bool := '0' ≤ c && c ≤ '9'

/-- Adds a character to the parts of a word, the last one first. -/
def addChar (c : Char) (quoted : Bool) : List Part → List Part
  | .text text q :: parts =>
    if q == quoted then .text (text.push c) q :: parts
    else .text (String.ofList [c]) quoted :: .text text q :: parts
  | parts => .text (String.ofList [c]) quoted :: parts

/-- The text between grave accents as commands see it. -/
def accented (quoted : Bool) : List Char → Option (List Char × List Char)
  | [] => none
  | '\x60' :: cs => some ([], cs)
  | '\\' :: c :: cs =>
    let kept := if c == '\\' || c == '\x60' || c == '$' || (quoted && c == '"') then [c]
      else ['\\', c]
    (accented quoted cs).map fun (inside, rest) => (kept ++ inside, rest)
  | c :: cs => (accented quoted cs).map fun (inside, rest) => (c :: inside, rest)

variable (commands : ReadCommands)

/-- Reads commands up to a closing parenthesis. -/
def readOutput (quoted : Bool) : Reading Part := do
  let body ← commands true
  closeParenthesis
  return .output body quoted

/-- Reads commands between grave accents. -/
def readAccented (quoted : Bool) : Reading Part := do
  let s ← get
  match accented quoted s.rest with
  | none => fail "Syntax error: EOF in backquote substitution"
  | some (inside, rest) =>
    let lines := (s.rest.take (s.rest.length - rest.length)).count '\n'
    set { s with rest := rest, line := s.line + lines }
    let body ← within inside (commands true)
    return .output body quoted

/-- The name of a parameter in braces, and whether its length is meant. -/
def readName : Reading (Option (String × Bool)) := do
  let named : Reading (Option String) := do
    match ← peekJoined with
    | none => return none
    | some c =>
      if isNameStart c then return some (← takeWhile isNameChar)
      else if isDigit c then return some (← takeWhile isDigit)
      else if isSpecial c then
        let _ ← takeChar
        return some (String.ofList [c])
      else return none
  let s ← get
  match s.rest with
  | '#' :: c :: rest =>
    let isLength := isNameStart c || isDigit c || (isSpecial c && rest.head? == some '\x7d')
    if isLength then
      let _ ← takeChar
      return (← named).map fun name => (name, true)
    else
      let _ ← takeChar
      return some ("#", false)
  | _ => return (← named).map fun name => (name, false)

/-- The operation that signs after a name mean, made of the word that follows them. -/
def operation? (signs : List Char) : Option ((Word → Operation) × Nat) :=
  match signs with
  | ':' :: '-' :: _ => some (.orElse true, 2)
  | ':' :: '=' :: _ => some (.orAssign true, 2)
  | ':' :: '?' :: _ => some (.orFail true, 2)
  | ':' :: '+' :: _ => some (.andThen true, 2)
  | '-' :: _ => some (.orElse false, 1)
  | '=' :: _ => some (.orAssign false, 1)
  | '?' :: _ => some (.orFail false, 1)
  | '+' :: _ => some (.andThen false, 1)
  | '#' :: '#' :: _ => some (.trim false true, 2)
  | '#' :: _ => some (.trim false false, 1)
  | '%' :: '%' :: _ => some (.trim true true, 2)
  | '%' :: _ => some (.trim true false, 1)
  | _ => none

/-- Takes so many characters off. -/
def takeChars : Nat → Reading Unit
  | 0 => pure ()
  | n + 1 => do
    let _ ← takeChar
    takeChars n

/-- Reads parts of a word up to where its place ends; `parts` are those before, the last one
first.  The fuel bounds the number of characters. -/
def readParts (fuel : Nat) (place : Place) (parts : List Part) :
    Reading (List Part) :=
  match fuel with
  | 0 => return parts
  | fuel + 1 => do
    let quoted := place.isQuoted
    let more (place : Place) (parts : List Part) : Reading (List Part) :=
      readParts fuel place parts
    match ← peek with
    | none =>
      match place with
      | .plain | .document => return parts
      | .quoted | .braces true => fail "Syntax error: Unterminated quoted string"
      | .braces false => fail "Syntax error: Missing '\x7d'"
      | .arithmetic _ => fail "Syntax error: Missing '))'"
    | some c =>
      if place = .plain && endsWord c then return parts
      let _ ← takeChar
      match c, place with
      | '"', .quoted | '\x7d', .braces _ => return parts
      | '(', .arithmetic depth => more (.arithmetic (depth + 1)) (addChar c true parts)
      | ')', .arithmetic 0 =>
        if (← peekJoined) == some ')' then
          let _ ← takeChar
          return parts
        else more place (addChar c true parts)
      | ')', .arithmetic (depth + 1) => more (.arithmetic depth) (addChar c true parts)
      | '\\', place =>
        match ← takeChar with
        | none => more place (addChar '\\' quoted parts)
        | some '\n' => more place parts
        | some e =>
          let isEscaped := !quoted || e == '\\' || e == '\x60' || e == '$'
            || (e == '"' && place != .document) || (e == '\x7d' && place == .braces true)
          if isEscaped then more place (addChar e true parts)
          else more place (addChar e true (addChar '\\' true parts))
      | '\x27', .plain | '\x27', .braces false =>
        let inside ← takeWhile (· != '\x27')
        let lines := inside.toList.count '\n'
        modify fun s => { s with line := s.line + lines }
        match ← takeChar with
        | none => fail "Syntax error: Unterminated quoted string"
        | some _ => more place (.text inside true :: parts)
      | '"', .plain | '"', .braces _ =>
        more place (← readParts fuel .quoted (.text "" true :: parts))
      | '\x60', place => more place ((← readAccented commands quoted) :: parts)
      | '$', place =>
        match ← peekJoined with
        | some '(' =>
          let _ ← takeChar
          if (← peekJoined) == some '(' then
            let _ ← takeChar
            let expression ← readParts fuel (.arithmetic 0) []
            more place (.arithmetic expression.reverse quoted :: parts)
          else more place ((← readOutput commands quoted) :: parts)
        | some '\x7b' =>
          let _ ← takeChar
          match ← readName with
          | none =>
            let _ ← readParts fuel (.braces quoted) []
            more place (.parameter "" .bad quoted :: parts)
          | some (name, isLength) =>
            joinLines fuel
            let s ← get
            match s.rest, operation? s.rest with
            | '\x7d' :: _, _ =>
              let _ ← takeChar
              let operation := if isLength then Operation.length else .value
              more place (.parameter name operation quoted :: parts)
            | _, some (operation, width) =>
              takeChars width
              let isTrim := match operation [] with
                | .trim _ _ _ => true
                | _ => false
              let word ← readParts fuel (.braces (quoted && !isTrim)) []
              more place (.parameter name
                (if isLength then .bad else operation word.reverse) quoted :: parts)
            | _, none =>
              let _ ← readParts fuel (.braces quoted) []
              more place (.parameter name .bad quoted :: parts)
        | some d =>
          if isNameStart d then
            let name ← takeWhile isNameChar
            more place (.parameter name .value quoted :: parts)
          else if isDigit d || isSpecial d then
            let _ ← takeChar
            more place (.parameter (String.ofList [d]) .value quoted :: parts)
          else more place (addChar '$' quoted parts)
        | none => more place (addChar '$' quoted parts)
      | c, place => more place (addChar c quoted parts)

/-- Reads a word from its first character on. -/
def read : Reading Word := do
  let start : List Part ← match (← get).rest with
    | '~' :: rest =>
      if rest.head?.all fun c => c == '/' || endsWord c then do
        let _ ← takeChar
        pure [Part.home]
      else pure []
    | _ => pure []
  let parts ← readParts commands (← budget) .plain start
  return parts.reverse

/-- Reads a text that stands in a script, with its expansions. -/
def readDocument (text : List Char) : Reading Word :=
  within text do
    let parts ← readParts commands (← budget) .document []
    return parts.reverse

/-- The text of a word in which nothing is quoted or expanded. -/
def plain? : Word → Option String
  | [.text text false] => some text
  | _ => none

/-- The text of a word as it stands, and whether something in it is quoted. -/
def unexpanded (word : Word) : String × Bool :=
  word.foldl (fun (text, quoted) part =>
    match part with
    | .text more q => (text ++ more, quoted || q)
    | .parameter name _ _ => (text ++ "$" ++ name, quoted)
    | .home => (text ++ "~", quoted)
    | _ => (text, quoted)) ("", false)

end Word

end MutationTesting.Shell
