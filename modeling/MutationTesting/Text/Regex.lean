import MutationTesting.Text.CharSet
import MutationTesting.Text.Numeral

/-!
# Regular expressions

A `Regex` is a regular expression with groups.  `Regex.parse` reads the two written forms
that search tools have: the basic one, in which the signs for groups, alternatives and
counts have backslashes, and the extended one, in which they have none.
-/

namespace MutationTesting.Text

/-- A condition on a place in a text. -/
inductive Place where
  | start
  | stop
  /-- Between a character of a word and another one. -/
  | wordEdge
  | noWordEdge
  | wordStart
  | wordStop
  /-- Not after a character of a word. -/
  | noWordBefore
  /-- Not before one. -/
  | noWordAfter
  deriving DecidableEq, Repr

/-- A regular expression. -/
inductive Regex where
  | empty
  | one (set : CharSet)
  | place (place : Place)
  | both (first second : Regex)
  | either (first second : Regex)
  /-- So many times at least, and at most if there is a bound. -/
  | times (body : Regex) (least : Nat) (most : Option Nat)
  | group (number : Nat) (body : Regex)
  /-- The text of a group once more. -/
  | again (number : Nat)
  deriving DecidableEq, Repr

namespace Regex

/-- The written forms of regular expressions. -/
inductive Form where
  | basic
  | extended
  /-- The extended form in which a closing parenthesis alone stands for itself. -/
  | lenient
  /-- The extended form in which braces stand for themselves and brackets know backslashes. -/
  | scripting
  deriving DecidableEq, Repr

/-- Why a text is no regular expression. -/
inductive Flaw where
  | unmatchedBracket
  | badRange
  | badClass
  | unmatchedOpening
  | unmatchedClosing
  | unmatchedBrace
  | badCount
  | badGroup
  | trailingBackslash
  | nothingInBrackets
  deriving DecidableEq, Repr

def Flaw.message : Flaw → String
  | .unmatchedBracket => "Unmatched [, [^, [:, [., or [="
  | .badRange => "Invalid range end"
  | .badClass => "Invalid character class name"
  | .unmatchedOpening => "Unmatched ( or \\("
  | .unmatchedClosing => "Unmatched ) or \\)"
  | .unmatchedBrace => "Unmatched \\\x7b"
  | .badCount => "Invalid content of \\\x7b\\\x7d"
  | .badGroup => "Invalid back reference"
  | .trailingBackslash => "Trailing backslash"
  | .nothingInBrackets => "Invalid regular expression"

def Flaw.ofBrackets : CharSet.Flaw → Flaw
  | .unclosed => .unmatchedBracket
  | .badRange => .badRange
  | .badClass => .badClass

/-! ### Signs -/

/-- What the signs of a written expression mean. -/
inductive Sign where
  | one (set : CharSet)
  | place (place : Place)
  | opening
  | closing
  | bar
  | times (least : Nat) (most : Option Nat)
  | again (number : Nat)
  deriving DecidableEq, Repr

/-- Reads a count such as `3`, `2,` or `1,4` up to what closes it. -/
def count? (closing : List Char) (cs : List Char) : Option (Nat × Option Nat × List Char) :=
  let digits (cs : List Char) : List Char := cs.takeWhile isDigit
  let close (cs : List Char) : Option (List Char) :=
    if closing.isPrefixOf cs then some (cs.drop closing.length) else none
  let least := digits cs
  match cs.drop least.length with
  | ',' :: rest =>
    let most := digits rest
    (close (rest.drop most.length)).map fun rest =>
      (digitsValue least, if most.isEmpty then none else some (digitsValue most), rest)
  | rest =>
    if least.isEmpty then none
    else (close rest).map fun rest => (digitsValue least, some (digitsValue least), rest)

/-- The sign that a backslash and a letter mean in every form. -/
def letterSign? (c : Char) : Option Sign :=
  match c with
  | 'w' => some (.one .word)
  | 'W' => some (.one CharSet.word.negate)
  | 's' => some (.one .space)
  | 'S' => some (.one CharSet.space.negate)
  | 'b' => some (.place .wordEdge)
  | 'B' => some (.place .noWordEdge)
  | '<' => some (.place .wordStart)
  | '>' => some (.place .wordStop)
  | '\x60' => some (.place .start)
  | '\x27' => some (.place .stop)
  | _ => none

/-- Whether a basic expression could start after a sign. -/
def isStart : Option Sign → Bool
  | none | some .opening | some .bar => true
  | _ => false

/-- The sign after a backslash, and what follows it. -/
def escaped (form : Form) (before : Option Sign) (c : Char) (cs : List Char) :
    Except Flaw (Sign × List Char) :=
  let literal : Except Flaw (Sign × List Char) := .ok (.one (.single c), cs)
  match form, c with
  | .basic, '(' => .ok (.opening, cs)
  | .basic, ')' => .ok (.closing, cs)
  | .basic, '|' => .ok (.bar, cs)
  | .basic, '+' => if isStart before then literal else .ok (.times 1 none, cs)
  | .basic, '?' => if isStart before then literal else .ok (.times 0 (some 1), cs)
  | .basic, '\x7b' =>
    if isStart before then literal
    else match count? ['\\', '\x7d'] cs with
      | some (least, most, rest) =>
        if most.any (· < least) then .error .badCount else .ok (.times least most, rest)
      | none => .error .unmatchedBrace
  | .scripting, _ => literal
  | _, c =>
    match letterSign? c with
    | some sign => .ok (sign, cs)
    | none =>
      if '1' ≤ c && c ≤ '9' then .ok (.again (c.toNat - '0'.toNat), cs) else literal

/-- The first sign of a text, which starts with `c`, and what follows it. -/
def nextSign (form : Form) (before : Option Sign) (c : Char) (cs : List Char) :
    Except Flaw (Sign × List Char) :=
  let literal : Except Flaw (Sign × List Char) := .ok (.one (.single c), cs)
  let extended (sign : Sign) : Except Flaw (Sign × List Char) :=
    if form = .basic then literal else .ok (sign, cs)
  match c with
  | '\\' =>
    match cs with
    | [] => .error .trailingBackslash
    | c :: cs => escaped form before c cs
  | '.' => .ok (.one .all, cs)
  | '[' =>
    if cs = [] || cs = ['^'] then .error .nothingInBrackets
    else match CharSet.ofBrackets? '^' (form = .scripting) cs with
    | .ok (set, rest) => .ok (.one set, rest)
    | .error flaw => .error (.ofBrackets flaw)
  | '*' =>
    if form = .basic && (isStart before || before = some (.place .start)) then literal
    else .ok (.times 0 none, cs)
  | '^' => if form = .basic && !isStart before then literal else .ok (.place .start, cs)
  | '$' =>
    let isLast := cs.isEmpty || ['\\', ')'].isPrefixOf cs || ['\\', '|'].isPrefixOf cs
    if form = .basic && !isLast then literal else .ok (.place .stop, cs)
  | '(' => extended .opening
  | ')' => extended .closing
  | '|' => extended .bar
  | '+' => extended (.times 1 none)
  | '?' => extended (.times 0 (some 1))
  | '\x7b' =>
    if form = .extended || form = .lenient then
      match count? ['\x7d'] cs with
      | some (least, most, rest) =>
        if most.any (· < least) then .error .badCount else .ok (.times least most, rest)
      | none => literal
    else literal
  | _ => literal

/-- The signs of a text.  The fuel bounds their number. -/
def signs (form : Form) : Nat → Option Sign → List Char → Except Flaw (List Sign)
  | 0, _, _ | _, _, [] => .ok []
  | fuel + 1, before, c :: cs => do
    let (sign, rest) ← nextSign form before c cs
    return sign :: (← signs form fuel (some sign) rest)

/-- Signs in which each that closes nothing stands for itself; `depth` groups are open. -/
def closingWhatIsOpen (depth : Nat) : List Sign → List Sign
  | [] => []
  | .opening :: signs => .opening :: closingWhatIsOpen (depth + 1) signs
  | .closing :: signs =>
    if depth = 0 then .one (.single ')') :: closingWhatIsOpen 0 signs
    else .closing :: closingWhatIsOpen (depth - 1) signs
  | sign :: signs => sign :: closingWhatIsOpen depth signs

/-! ### Structure -/

/-- The signs that are left, and the number of groups so far. -/
structure Rest where
  signs : List Sign
  groups : Nat

mutual

/-- Reads alternatives up to a closing sign or the end. -/
def alternatives : Nat → Rest → Except Flaw (Regex × Rest)
  | 0, _ => .error .unmatchedOpening
  | fuel + 1, s => do
    let (first, s) ← sequence fuel .empty s
    match s.signs with
    | .bar :: rest =>
      let (second, s) ← alternatives fuel { s with signs := rest }
      return (.either first second, s)
    | _ => return (first, s)

/-- Reads what follows one after the other; `before` is what was read. -/
def sequence : Nat → Regex → Rest → Except Flaw (Regex × Rest)
  | 0, _, _ => .error .unmatchedOpening
  | fuel + 1, before, s => do
    let add (r : Regex) (s : Rest) : Except Flaw (Regex × Rest) := do
      let (r, s) := counted r s
      sequence fuel (if before = .empty then r else .both before r) s
    match s.signs with
    | [] | .bar :: _ | .closing :: _ => return (before, s)
    | .one set :: rest => add (.one set) { s with signs := rest }
    | .place p :: rest => add (.place p) { s with signs := rest }
    | .times _ _ :: rest => sequence fuel before { s with signs := rest }
    | .again n :: rest =>
      if s.groups < n then .error .badGroup else add (.again n) { s with signs := rest }
    | .opening :: rest =>
      let number := s.groups + 1
      let (body, s) ← alternatives fuel ⟨rest, number⟩
      match s.signs with
      | .closing :: rest => add (.group number body) { s with signs := rest }
      | _ => .error .unmatchedOpening
where
  /-- An expression with the counts that follow it. -/
  counted (r : Regex) (s : Rest) : Regex × Rest :=
    let counts := s.signs.takeWhile fun | .times _ _ => true | _ => false
    (counts.foldl (fun r sign =>
      match sign with
      | .times least most => .times r least most
      | _ => r) r, { s with signs := s.signs.drop counts.length })

end

/-- Reads a regular expression. -/
def parse (form : Form) (cs : List Char) : Except Flaw Regex := do
  let signs ← signs form cs.length none cs
  let signs := if form = .lenient then closingWhatIsOpen 0 signs else signs
  let (r, s) ← alternatives (2 * signs.length + 2) ⟨signs, 0⟩
  if s.signs.isEmpty then return r else .error .unmatchedClosing

/-- The same expression for letters in both cases. -/
def ignoringCase : Regex → Regex
  | .one set => .one { set with ignoreCase := true }
  | .both a b => .both a.ignoringCase b.ignoringCase
  | .either a b => .either a.ignoringCase b.ignoringCase
  | .times body least most => .times body.ignoringCase least most
  | .group n body => .group n body.ignoringCase
  | r => r

/-- Whether there is a group in an expression. -/
def hasGroup : Regex → Bool
  | .group _ _ => true
  | .both a b | .either a b => a.hasGroup || b.hasGroup
  | .times body _ _ => body.hasGroup
  | _ => false

/-- The expression for a text itself. -/
def literal (cs : List Char) : Regex :=
  cs.foldr (fun c r => .both (.one (.single c)) r) .empty

end Regex

end MutationTesting.Text
