import MutationTesting.Shell

/-!
# What is left of a script

A `Source` is the text of a script that has not been read yet.  `Reading` is a computation
that reads from one and may find that it is no script.
-/

namespace MutationTesting.Shell

/-- The smallest parts of a script above characters. -/
inductive Token where
  /-- A word, and its text if nothing in it is quoted or expanded. -/
  | word (word : Word) (plain : Option String)
  /-- A word that starts or ends a part of a compound command. -/
  | keyword (text : String)
  /-- A sign, or the end of a line. -/
  | sign (text : String)
  /-- The start of a redirection of a stream. -/
  | redirect (stream : Nat) (text : String)
  | stop

/-- What a message calls a token. -/
def Token.name : Token → String
  | .word _ _ => "word"
  | .keyword text => s!"\"{text}\""
  | .sign "\n" => "newline"
  | .sign text => s!"\"{text}\""
  | .redirect _ _ => "redirection"
  | .stop => "end of file"

/-- What is left of a script, and where it is. -/
structure Source where
  rest : List Char
  line : Nat := 1
  /-- The number of lines that were taken out after the current line. -/
  skipped : Nat := 0
  /-- A token that was read and put back. -/
  pushed : Option Token := none

/-- Reads a part of a script. -/
abbrev Reading := StateT Source (Except SyntaxFlaw)

namespace Reading

def fail {α : Type} (reason : String) : Reading α := do throw ⟨(← get).line, reason⟩

/-- The next character, which is left where it is. -/
def peek : Reading (Option Char) := do return (← get).rest.head?

/-- Takes a character off. -/
def takeChar : Reading (Option Char) := do
  let s ← get
  match s.rest with
  | [] => return none
  | '\n' :: rest =>
    set { s with rest := rest, line := s.line + 1 + s.skipped, skipped := 0 }
    return some '\n'
  | c :: rest =>
    set { s with rest := rest }
    return some c

/-- Skips ends of lines that have a backslash before them; `n` bounds their number. -/
def joinLines : Nat → Reading Unit
  | 0 => pure ()
  | n + 1 => do
    match (← get).rest with
    | '\\' :: '\n' :: _ =>
      let _ ← takeChar
      let _ ← takeChar
      joinLines n
    | _ => pure ()

/-- The next character after ends of lines that do not count. -/
def peekJoined : Reading (Option Char) := do
  joinLines (← get).rest.length
  peek

/-- Takes the characters with a property off. -/
def takeWhile (p : Char → Bool) : Reading String := do
  let s ← get
  let taken := s.rest.takeWhile p
  set { s with rest := s.rest.drop taken.length }
  return String.ofList taken

/-- The number of steps that reading the rest can take. -/
def budget : Reading Nat := do return (← get).rest.length + 2

/-- Complains about a token. -/
def unexpected {α : Type} (t : Token) : Reading α := fail s!"Syntax error: {t.name} unexpected"

/-- Complains about a token in the place of another one. -/
def unexpectedFor {α : Type} (wanted : String) (t : Token) : Reading α :=
  fail s!"Syntax error: {t.name} unexpected (expecting {wanted})"

/-- Takes the closing parenthesis off that ended commands and was put back. -/
def closeParenthesis : Reading Unit := do
  let s ← get
  match s.pushed with
  | some (.sign ")") => set { s with pushed := none }
  | t => unexpectedFor "\")\"" (t.getD .stop)

/-- Reads another text with the same computation as the rest. -/
def within {α : Type} (text : List Char) (read : Reading α) : Reading α := do
  let s ← get
  set { s with rest := text, skipped := 0, pushed := none }
  let value ← read
  set s
  return value

end Reading

end MutationTesting.Shell
