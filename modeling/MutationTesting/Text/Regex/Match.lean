import MutationTesting.Text.Regex

/-!
# Matching regular expressions

A regular expression is compiled to a `Program` of small steps.  Its matches are found by
following all ways through it at once, one character after the other, so that the first
place with a match is found there with its longest one.  A program that repeats the text of
a group tries one way after the other instead.
-/

namespace MutationTesting.Text.Regex

/-- A step of a program. -/
inductive Step where
  | one (set : CharSet)
  | place (place : Place)
  | jump (target : Nat)
  /-- Two ways to go on, the better one first. -/
  | fork (first second : Nat)
  /-- Takes note of the place in the text. -/
  | mark (slot : Nat)
  | again (number : Nat)
  | accept
  deriving DecidableEq, Repr

/-- Steps by their addresses. -/
abbrev Program := Array Step

/-! ### Compiling -/

/-- Steps that come several times, at the addresses where they stand. -/
def copies (code : Nat → List Step) : Nat → Nat → List Step
  | 0, _ => []
  | n + 1, start =>
    let steps := code start
    steps ++ copies code n (start + steps.length)

/-- Steps that may come up to so many times, each only after those before. -/
def options (code : Nat → List Step) : Nat → Nat → List Step
  | 0, _ => []
  | n + 1, start =>
    let steps := code (start + 1)
    let rest := options code n (start + 1 + steps.length)
    .fork (start + 1) (start + 1 + steps.length + rest.length) :: steps ++ rest

/-- The steps of an expression, the first one at an address. -/
def steps : Regex → Nat → List Step
  | .empty, _ => []
  | .one set, _ => [.one set]
  | .place p, _ => [.place p]
  | .again n, _ => [.again n]
  | .both a b, start =>
    let first := a.steps start
    first ++ b.steps (start + first.length)
  | .either a b, start =>
    let first := a.steps (start + 1)
    let second := b.steps (start + first.length + 2)
    .fork (start + 1) (start + first.length + 2) :: first
      ++ .jump (start + first.length + 2 + second.length) :: second
  | .group n body, start =>
    .mark (2 * n) :: body.steps (start + 1) ++ [.mark (2 * n + 1)]
  | .times body least most, start =>
    let fixed := copies body.steps least start
    let start := start + fixed.length
    match most with
    | some most => fixed ++ options body.steps (most - least) start
    | none =>
      let code := body.steps (start + 1)
      fixed ++ .fork (start + 1) (start + code.length + 2) :: code ++ [.jump start]

/-- The program of an expression. -/
def compile (r : Regex) : Program := (r.steps 0 ++ [Step.accept]).toArray

def repeatsGroup (p : Program) : Bool := p.any fun | .again _ => true | _ => false

/-! ### Places -/

/-- The surroundings of a place in a text. -/
structure Spot where
  index : Nat
  before : Option Char
  after : Option Char

/-- Whether a place is of a kind. -/
def Spot.satisfies (s : Spot) (place : Place) : Bool :=
  let isWord (c : Option Char) : Bool := c.any CharSet.word.contains
  match place with
  | .start => s.before.isNone
  | .stop => s.after.isNone
  | .wordEdge => isWord s.before != isWord s.after
  | .noWordEdge => isWord s.before == isWord s.after
  | .wordStart => !isWord s.before && isWord s.after
  | .wordStop => isWord s.before && !isWord s.after
  | .noWordBefore => !isWord s.before
  | .noWordAfter => !isWord s.after

/-- What was noted in each slot, the last first. -/
abbrev Marks := List (Nat × Nat)

/-! ### All ways at once -/

/-- A way through a program: the step that it waits at, and its marks. -/
structure Way where
  address : Nat
  marks : Marks

/-- The ways at one place of a text. -/
structure Ways where
  /-- The ways that wait for a character, the best one last. -/
  waiting : List Way := []
  /-- The marks of the best way to the end of the program. -/
  accepted : Option Marks := none
  /-- The steps that were reached. -/
  reached : Array Bool

/-- Follows a way as far as it goes without a character.  The fuel bounds the steps that
one way takes. -/
def follow (p : Program) (spot : Spot) : Nat → Way → Ways → Ways
  | 0, _, ws => ws
  | fuel + 1, w, ws =>
    if (ws.reached[w.address]?).getD true then ws
    else
      let ws := { ws with reached := ws.reached.setIfInBounds w.address true }
      match p[w.address]? with
      | none | some (.again _) => ws
      | some (.one _) => { ws with waiting := w :: ws.waiting }
      | some .accept => { ws with accepted := ws.accepted.or (some w.marks) }
      | some (.place condition) =>
        if spot.satisfies condition then follow p spot fuel { w with address := w.address + 1 } ws
        else ws
      | some (.jump target) => follow p spot fuel { w with address := target } ws
      | some (.fork first second) =>
        follow p spot fuel { w with address := second }
          (follow p spot fuel { w with address := first } ws)
      | some (.mark slot) =>
        follow p spot fuel ⟨w.address + 1, (slot, spot.index) :: w.marks⟩ ws

/-- A match: where it ends, and the marks made on the way. -/
structure Found where
  stop : Nat
  marks : Marks

/-- Whether a way waits for a character. -/
def Way.awaits (p : Program) (c : Char) (w : Way) : Bool :=
  match p[w.address]? with
  | some (.one set) => set.contains c
  | _ => false

/-- Goes on with ways that wait for the next character; gives the longest match, or else the
best one so far. -/
def advance (p : Program) (waiting : List Way) (index : Nat) (best : Option Found) :
    List Char → Option Found
  | [] => best
  | c :: cs =>
    let spot : Spot := ⟨index + 1, some c, cs.head?⟩
    let ws := (waiting.reverse.filter (Way.awaits p c)).foldl
      (fun ws w => follow p spot (p.size + 1) { w with address := w.address + 1 } ws)
      { reached := Array.replicate p.size false }
    let best := (ws.accepted.map fun marks => (⟨index + 1, marks⟩ : Found)).or best
    if ws.waiting.isEmpty then best else advance p ws.waiting (index + 1) best cs

/-! ### One way after the other -/

/-- The text between two marks. -/
def marked? (marks : Marks) (number : Nat) (subject : List Char) : Option (List Char) := do
  let start ← marks.lookup (2 * number)
  let stop ← marks.lookup (2 * number + 1)
  return (subject.drop start).take (stop - start)

/-- Follows the first way that leads to the end.  The fuel bounds the steps that it takes. -/
def tryWays (p : Program) (subject : List Char) :
    Nat → Nat → Spot → Marks → List Char → Option Found
  | 0, _, _, _, _ => none
  | fuel + 1, address, spot, marks, cs =>
    match p[address]? with
    | none => none
    | some .accept => some ⟨spot.index, marks⟩
    | some (.one set) =>
      match cs with
      | [] => none
      | c :: cs =>
        if set.contains c then
          tryWays p subject fuel (address + 1) ⟨spot.index + 1, some c, cs.head?⟩ marks cs
        else none
    | some (.place condition) =>
      if spot.satisfies condition then tryWays p subject fuel (address + 1) spot marks cs else none
    | some (.jump target) => tryWays p subject fuel target spot marks cs
    | some (.fork first second) =>
      (tryWays p subject fuel first spot marks cs).or
        (tryWays p subject fuel second spot marks cs)
    | some (.mark slot) =>
      tryWays p subject fuel (address + 1) spot ((slot, spot.index) :: marks) cs
    | some (.again number) =>
      match marked? marks number subject with
      | none => none
      | some text =>
        if text.isPrefixOf cs then
          let rest := cs.drop text.length
          let spot : Spot := ⟨spot.index + text.length, text.getLast?.or spot.before, rest.head?⟩
          tryWays p subject fuel (address + 1) spot marks rest
        else none

/-! ### Searching -/

/-- The match at a place of a text, if there is one. -/
def matchAt (p : Program) (subject : List Char) (index : Nat) (before : Option Char)
    (cs : List Char) : Option Found :=
  let spot : Spot := ⟨index, before, cs.head?⟩
  if repeatsGroup p then
    tryWays p subject ((cs.length + 2) * (p.size + 2)) 0 spot [] cs
  else
    let ws := follow p spot (p.size + 1) ⟨0, []⟩ { reached := Array.replicate p.size false }
    advance p ws.waiting index (ws.accepted.map fun marks => ⟨index, marks⟩) cs

/-- A match in a text: where it starts and ends, and its groups. -/
structure Match where
  start : Nat
  stop : Nat
  marks : Marks

/-- The text of a match, or of one of its groups. -/
def Match.text (m : Match) (subject : List Char) (number : Nat) : List Char :=
  if number = 0 then (subject.drop m.start).take (m.stop - m.start)
  else (marked? m.marks number subject).getD []

/-- The first match from a place on. -/
def searchFrom (p : Program) (subject : List Char) (index : Nat) (before : Option Char) :
    List Char → Option Match
  | [] => (matchAt p subject index before []).map fun f => ⟨index, f.stop, f.marks⟩
  | c :: cs =>
    match matchAt p subject index before (c :: cs) with
    | some f => some ⟨index, f.stop, f.marks⟩
    | none => searchFrom p subject (index + 1) (some c) cs

/-- The first match that starts so many characters into a text or later. -/
def search? (p : Program) (subject : List Char) (start : Nat) : Option Match :=
  searchFrom p subject start (if start = 0 then none else subject[start - 1]?)
    (subject.drop start)

/-- Whether there is a match in a text. -/
def occursIn (p : Program) (subject : List Char) : Bool := (search? p subject 0).isSome

/-- Whether a text as a whole is a match. -/
def isMatch (p : Program) (subject : List Char) : Bool :=
  (matchAt p subject 0 none subject).any (·.stop == subject.length)

end MutationTesting.Text.Regex
