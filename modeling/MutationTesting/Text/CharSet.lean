/-!
# Sets of characters

A `CharSet` is what a bracket expression such as `[a-z_]` or `[^[:space:]]` stands for.
`CharSet.ofBrackets?` reads the text of one after its opening bracket.
-/

namespace MutationTesting.Text

/-- A set of characters: those in one of some ranges, or those in none of them. -/
structure CharSet where
  ranges : List (Char × Char)
  negated : Bool := false
  /-- Whether a letter counts in both its cases. -/
  ignoreCase : Bool := false
  deriving DecidableEq, Repr

namespace CharSet

def inRanges (ranges : List (Char × Char)) (c : Char) : Bool :=
  ranges.any fun (first, last) => first ≤ c && c ≤ last

def contains (s : CharSet) (c : Char) : Bool :=
  let found :=
    if s.ignoreCase then inRanges s.ranges c.toLower || inRanges s.ranges c.toUpper
    else inRanges s.ranges c
  found != s.negated

/-- The set of all characters. -/
def all : CharSet := { ranges := [], negated := true }

def single (c : Char) : CharSet := { ranges := [(c, c)] }

@[simp] theorem contains_all (c : Char) :
  all.contains c = true
  := rfl

/-- The characters of the named classes. -/
def classes : List (String × List (Char × Char)) := [
  ("alpha", [('A', 'Z'), ('a', 'z')]), ("digit", [('0', '9')]),
  ("alnum", [('0', '9'), ('A', 'Z'), ('a', 'z')]), ("upper", [('A', 'Z')]),
  ("lower", [('a', 'z')]), ("space", [('\t', '\r'), (' ', ' ')]),
  ("blank", [('\t', '\t'), (' ', ' ')]),
  ("punct", [('!', '/'), (':', '@'), ('[', '\x60'), ('\x7b', '~')]), ("print", [(' ', '~')]),
  ("graph", [('!', '~')]), ("cntrl", [('\x00', '\x1f'), ('\x7f', '\x7f')]),
  ("xdigit", [('0', '9'), ('A', 'F'), ('a', 'f')])]

/-- The characters of words: letters, digits and the underscore. -/
def word : CharSet := { ranges := [('0', '9'), ('A', 'Z'), ('a', 'z'), ('_', '_')] }

/-- White space. -/
def space : CharSet := { ranges := [('\t', '\r'), (' ', ' ')] }

def negate (s : CharSet) : CharSet := { s with negated := !s.negated }

/-- What is wrong with a bracket expression. -/
inductive Flaw where
  | unclosed
  | badRange
  | badClass
  deriving DecidableEq, Repr

/-- Parts a text off that ends in a mark and a bracket. -/
def upTo? (mark : Char) : List Char → Option (List Char × List Char)
  | a :: b :: cs =>
    if a == mark && b == ']' then some ([], cs)
    else (upTo? mark (b :: cs)).map fun (inside, rest) => (a :: inside, rest)
  | _ => none

/-- Reads a named class, or a character that may be the end of a range. -/
def item? (escapes : Bool) : List Char → Except Flaw ((List (Char × Char) ⊕ Char) × List Char)
  | '[' :: ':' :: cs =>
    match upTo? ':' cs with
    | none => .ok (.inr '[', ':' :: cs)
    | some (name, rest) =>
      match classes.lookup (String.ofList name) with
      | some ranges => .ok (.inl ranges, rest)
      | none => .error .badClass
  | '[' :: '=' :: c :: '=' :: ']' :: cs => .ok (.inr c, cs)
  | '[' :: '.' :: c :: '.' :: ']' :: cs => .ok (.inr c, cs)
  | '\\' :: c :: cs => if escapes then .ok (.inr c, cs) else .ok (.inr '\\', c :: cs)
  | c :: cs => .ok (.inr c, cs)
  | [] => .error .unclosed

/-- Reads the rest of a bracket expression; `first` says that a closing bracket would stand
for itself.  The fuel bounds the number of items. -/
def items? (escapes : Bool) : Nat → Bool → List Char → Except Flaw (List (Char × Char) × List Char)
  | 0, _, _ | _, _, [] => .error .unclosed
  | fuel + 1, first, cs => do
    match first, cs with
    | false, ']' :: rest => return ([], rest)
    | _, cs =>
      let (item, rest) ← item? escapes cs
      match item, rest with
      | .inl ranges, rest =>
        let (more, rest) ← items? escapes fuel false rest
        return (ranges ++ more, rest)
      | .inr a, '-' :: c :: rest =>
        if c == ']' then
          let (more, rest) ← items? escapes fuel false ('-' :: c :: rest)
          return ((a, a) :: more, rest)
        else
          let (last, rest) ← item? escapes (c :: rest)
          match last with
          | .inl _ => .error .badRange
          | .inr b =>
            if b < a then .error .badRange
            else
              let (more, rest) ← items? escapes fuel false rest
              return ((a, b) :: more, rest)
      | .inr a, rest =>
        let (more, rest) ← items? escapes fuel false rest
        return ((a, a) :: more, rest)

/-- Reads a bracket expression after its opening bracket.  `negation` is the sign that turns
it around, and `escapes` says whether a backslash takes the meaning of a sign away. -/
def ofBrackets? (negation : Char) (escapes : Bool) (cs : List Char) :
    Except Flaw (CharSet × List Char) := do
  let (negated, cs) := match cs with
    | c :: rest => if c == negation then (true, rest) else (false, c :: rest)
    | [] => (false, [])
  let (ranges, rest) ← items? escapes (cs.length + 1) true cs
  return ({ ranges := ranges, negated := negated }, rest)

end CharSet

end MutationTesting.Text
