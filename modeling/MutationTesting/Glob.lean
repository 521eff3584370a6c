import MutationTesting.Text.Search

/-!
# Glob patterns

A `Pattern` tells which file names match: `?` is any character, `*` any characters,
`[abc]` and `[a-z]` one of some and `[!abc]` one of the others.  `**`, which may only stand
between slashes, is any directories.
-/

namespace MutationTesting.Glob

/-- A character of a class, or all between two. -/
inductive Member where
  | single (c : Char)
  | range (first last : Char)
  deriving DecidableEq, Repr

/-- A piece of a pattern. -/
inductive Token where
  | char (c : Char)
  | anyChar
  | anySequence
  | oneOf (members : List Member)
  | noneOf (members : List Member)
  /-- Any directories one below the other, or none. -/
  | directories
  deriving DecidableEq, Repr

/-- A pattern for one name or one path. -/
abbrev Pattern := List Token

/-- What is wrong with a pattern. -/
inductive Fault where
  | tooManyStars
  | starsInName
  | badClass
  deriving DecidableEq, Repr

def Fault.message : Fault → String
  | .tooManyStars => "wildcards are either regular \x60*\x60 or recursive \x60**\x60"
  | .starsInName => "recursive wildcards must form a single path component"
  | .badClass => "invalid range pattern"

/-- A text is no pattern; the position counts its characters. -/
structure PatternError where
  position : Nat
  fault : Fault
  deriving DecidableEq, Repr

def PatternError.message (e : PatternError) : String :=
  s!"Pattern syntax error near position {e.position}: {e.fault.message}"

/-- The members of a class from what stands between its brackets. -/
def members : List Char → List Member
  | a :: '-' :: b :: cs => .range a b :: members cs
  | c :: cs => .single c :: members cs
  | [] => []

/-- The token of a class and the text after it.  The text is that after the opening
bracket; a closing bracket that comes first is a member. -/
def class? (cs : List Char) : Option (Token × List Char) :=
  match cs with
  | '!' :: c :: cs =>
    (Text.firstSplit? [']'] cs).map fun (inside, rest) => (.noneOf (members (c :: inside)), rest)
  | ['!'] => none
  | c :: cs =>
    (Text.firstSplit? [']'] cs).map fun (inside, rest) => (.oneOf (members (c :: inside)), rest)
  | [] => none

/-- Reads a pattern from a position on.  `previous` is the character before it.  The fuel
bounds the number of tokens. -/
def parseFrom (position : Nat) (previous : Option Char) :
    Nat → List Char → Except PatternError Pattern
  | 0, _ | _, [] => .ok []
  | fuel + 1, '?' :: cs => return .anyChar :: (← parseFrom (position + 1) (some '?') fuel cs)
  | _ + 1, '*' :: '*' :: '*' :: _ => .error ⟨position + 2, .tooManyStars⟩
  | fuel + 1, '*' :: '*' :: cs =>
    if previous.all (· == '/') then
      match cs with
      | [] => .ok [.directories]
      | '/' :: cs => return .directories :: (← parseFrom (position + 3) (some '/') fuel cs)
      | _ => .error ⟨position + 2, .starsInName⟩
    else .error ⟨position - 1, .starsInName⟩
  | fuel + 1, '*' :: cs => return .anySequence :: (← parseFrom (position + 1) (some '*') fuel cs)
  | fuel + 1, '[' :: cs =>
    match class? cs with
    | none => .error ⟨position, .badClass⟩
    | some (token, rest) =>
      return token :: (← parseFrom (position + 1 + (cs.length - rest.length)) (some ']') fuel rest)
  | fuel + 1, c :: cs => return .char c :: (← parseFrom (position + 1) (some c) fuel cs)

namespace Pattern

/-- Reads a pattern. -/
def parse (text : List Char) : Except PatternError Pattern :=
  parseFrom 0 none text.length text

/-- Whether a pattern stands for any directories. -/
def isDirectories (p : Pattern) : Bool := p == [.directories]

/-- The text that a pattern stands for, if it is only one. -/
def literal? (p : Pattern) : Option String :=
  let char? : Token → Option Char
    | .char c => some c
    | _ => none
  (p.mapM char?).map String.ofList

end Pattern

def Member.contains (c : Char) : Member → Bool
  | .single m => c == m
  | .range first last => first ≤ c && c ≤ last

/-- Whether a text passes a test with some of its characters at the start left out. -/
def anyRest (test : List Char → Bool) : List Char → Bool
  | [] => test []
  | c :: cs => test (c :: cs) || anyRest test cs

/-- Whether the tokens of a pattern match a name. -/
def matchesName : Pattern → List Char → Bool
  | [], cs => cs.isEmpty
  | .anySequence :: p, cs | .directories :: p, cs => anyRest (matchesName p) cs
  | _ :: _, [] => false
  | .char m :: p, c :: cs => c == m && matchesName p cs
  | .anyChar :: p, _ :: cs => matchesName p cs
  | .oneOf members :: p, c :: cs => members.any (·.contains c) && matchesName p cs
  | .noneOf members :: p, c :: cs => !members.any (·.contains c) && matchesName p cs

end MutationTesting.Glob
