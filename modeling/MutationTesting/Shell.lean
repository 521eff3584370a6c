/-!
# Shell scripts

What a script of the shell consists of: words with expansions in them, redirections, and
commands that run one after the other, in pipelines, under conditions, in loops and in
functions.  A text of a script is one of bytes, each of which is a character below 256.
-/

namespace MutationTesting.Shell

mutual

/-- A part of a word.  What is quoted is neither split nor taken for a pattern. -/
inductive Part where
  | text (text : String) (quoted : Bool)
  /-- The value of a parameter, or what an operation makes of it. -/
  | parameter (name : String) (operation : Operation) (quoted : Bool)
  /-- The output of commands. -/
  | output (body : List Command) (quoted : Bool)
  /-- The value of an arithmetic expression. -/
  | arithmetic (expression : List Part) (quoted : Bool)
  /-- The home directory. -/
  | home

/-- What is done with the value of a parameter. -/
inductive Operation where
  | value
  | length
  /-- Takes a word instead when there is no value; with `empty` also of an empty one. -/
  | orElse (empty : Bool) (word : List Part)
  /-- The same, and the parameter gets the word. -/
  | orAssign (empty : Bool) (word : List Part)
  /-- Stops with a message when there is no value. -/
  | orFail (empty : Bool) (word : List Part)
  /-- Takes a word when there is a value, and else nothing. -/
  | andThen (empty : Bool) (word : List Part)
  /-- Takes the shortest or longest match of a pattern off the start or the end. -/
  | trim (atEnd longest : Bool) (pattern : List Part)
  /-- Something that is no operation. -/
  | bad

/-- Where a stream of a command comes from or goes to. -/
inductive Redirect where
  | input (stream : Nat) (source : List Part)
  /-- The file is made empty first; `force` says that it may be there in any case. -/
  | output (stream : Nat) (target : List Part) (force : Bool)
  | append (stream : Nat) (target : List Part)
  | both (stream : Nat) (target : List Part)
  /-- One stream is where another one is, or nowhere. -/
  | duplicate (stream : Nat) (other : List Part)
  /-- A text that stands in the script. -/
  | document (stream : Nat) (body : List Part)

/-- A command of a script. -/
inductive Command where
  /-- Assignments, words and redirections, on a line of the script. -/
  | simple (line : Nat) (assignments : List (String × List Part)) (words : List (List Part))
      (redirects : List Redirect)
  | pipeline (stages : List Command)
  | negation (command : Command)
  | both (first second : Command)
  | either (first second : Command)
  | background (command : Command)
  | conditional (test body : List Command) (otherwise : List Command)
  /-- A loop as long as the test has a status that is zero, or not zero. -/
  | loop (zero : Bool) (test body : List Command)
  | each (line : Nat) (name : String) (words : List (List Part)) (body : List Command)
  | choice (line : Nat) (word : List Part) (branches : List (List (List Part) × List Command))
  /-- Commands in a shell of their own. -/
  | subshell (line : Nat) (body : List Command) (redirects : List Redirect)
  /-- Commands with redirections, in the same shell. -/
  | group (line : Nat) (body : List Command) (redirects : List Redirect)
  | define (line : Nat) (name : String) (body : Command)

end

/-- A word of a script, before its parts are expanded. -/
abbrev Word := List Part

/-- The stream that a redirection sets. -/
def Redirect.stream : Redirect → Nat
  | .input n _ | .output n _ _ | .append n _ | .both n _ | .duplicate n _ | .document n _ => n

/-- Why a script cannot be read, and on which line that shows. -/
structure SyntaxFlaw where
  line : Nat
  reason : String
  deriving DecidableEq, Repr

/-- Whether a letter or an underscore can start a name. -/
def isNameStart (c : Char) : Bool := ('a' ≤ c && c ≤ 'z') || ('A' ≤ c && c ≤ 'Z') || c == '_'

def isNameChar (c : Char) : Bool := isNameStart c || ('0' ≤ c && c ≤ '9')

/-- Whether a text can be the name of a variable. -/
def isName (text : String) : Bool :=
  text.toList.head?.any isNameStart && text.toList.all isNameChar

/-- Commands of the shell that are part of it and are found before functions. -/
def specialNames : List String := [
  ".", ":", "break", "continue", "eval", "exec", "exit", "export", "local", "readonly", "return",
  "set", "shift", "times", "trap", "unset"]

/-- The options of a shell that have names, each with its letter. -/
def namedOptions : List (String × Char) := [
  ("errexit", 'e'), ("noglob", 'f'), ("ignoreeof", 'I'), ("interactive", 'i'), ("monitor", 'm'),
  ("noexec", 'n'), ("stdin", 's'), ("xtrace", 'x'), ("verbose", 'v'), ("vi", 'V'), ("emacs", 'E'),
  ("noclobber", 'C'), ("allexport", 'a'), ("notify", 'b'), ("nounset", 'u'), ("nolog", 'N'),
  ("debug", 'D')]

end MutationTesting.Shell
