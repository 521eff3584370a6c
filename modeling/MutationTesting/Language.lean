import MutationTesting.Path

/-!
# Languages

The languages whose sources can be mutated, how a file's extension selects one, and
the test command of a language that is used when none is configured.
-/

namespace MutationTesting

/-- A language whose files are mutated. -/
inductive Language where
  | go | python | rust | javaScript | typeScript | tsx
  deriving DecidableEq, Repr

namespace Language

def all : List Language := [.go, .python, .rust, .javaScript, .typeScript, .tsx]

def name : Language → String
  | .go => "Go"
  | .python => "Python"
  | .rust => "Rust"
  | .javaScript => "JavaScript"
  | .typeScript => "TypeScript"
  | .tsx => "TSX"

def ofName? (text : String) : Option Language := all.find? (·.name == text)

/-- The command that runs a project's tests when nothing else is configured. -/
def defaultTestCommand : Language → String
  | .go => "go test -v"
  | .python => "pytest -x -q"
  | .rust => "cargo test"
  | .javaScript | .typeScript | .tsx => "npx vitest run"

/-- The file extensions of a language. -/
def extensions : Language → List String
  | .go => ["go"]
  | .python => ["py"]
  | .rust => ["rs"]
  | .javaScript => ["js", "mjs", "cjs"]
  | .typeScript => ["ts", "mts", "cts"]
  | .tsx => ["tsx", "jsx"]

/-- The language that a file's extension selects. -/
def ofPath? (path : String) : Option Language :=
  (Path.extension? path).bind fun ext => all.find? fun language => language.extensions.contains ext

end Language

end MutationTesting
