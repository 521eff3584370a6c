import MutationTesting.Shell.Arithmetic
import MutationTesting.Shell.Editor
import MutationTesting.Shell.Tool

/-!
# Reading scripts for editing

`Script.read?` reads a script.  A complaint says after how many characters something is wrong.
-/

namespace MutationTesting.Shell.Editor

open Text (Regex)

/-- What is left of a script, and how much there was. -/
structure Rest where
  cs : List Char
  size : Nat
  extended : Bool
  /-- The commands so far. -/
  commands : Script := #[]
  /-- The numbers of commands whose braces are open. -/
  opened : List Nat := []

/-- Reads a part of a script from what is left of it. -/
abbrev Reading := StateT Rest (Except String)

/-- Complains about the place that has been reached. -/
def flaw {α : Type} (text : String) : Reading α := do
  let s ← get
  throw s!"-e expression #1, char {s.size - s.cs.length}: {text}"

def peek : Reading (Option Char) := do return (← get).cs.head?

def take : Reading (Option Char) := do
  let s ← get
  match s.cs with
  | [] => return none
  | c :: cs =>
    set { s with cs := cs }
    return some c

def skipWhile (p : Char → Bool) : Reading Unit :=
  modify fun s => { s with cs := s.cs.dropWhile p }

def isBlank (c : Char) : Bool := c == ' ' || c == '\t'

def takeWhile (p : Char → Bool) : Reading (List Char) := do
  let s ← get
  let taken := s.cs.takeWhile p
  set { s with cs := s.cs.drop taken.length }
  return taken

/-- The number that stands next, if there is one. -/
def number? : Reading (Option Nat) := do
  let digits ← takeWhile Text.isDigit
  return if digits.isEmpty then none else some (Text.digitsValue digits)

/-- What the characters so far are inside of. -/
inductive Inside where
  | nothing
  /-- Brackets; `fresh` says that a closing one would still stand for itself. -/
  | brackets (fresh : Bool)
  /-- A name in brackets, which ends at a sign and a closing bracket. -/
  | name (sign : Char)
  deriving DecidableEq, Repr

/-- What characters are inside of after one more, and the one that follows. -/
def Inside.step (inside : Inside) (c : Char) (next : Option Char) : Inside :=
  match inside with
  | .nothing => if c == '[' then .brackets true else .nothing
  | .brackets fresh =>
    if c == '^' && fresh then .brackets true
    else if c == ']' && !fresh then .nothing
    else match c, next with
      | '[', some ':' => .name ':'
      | '[', some '.' => .name '.'
      | '[', some '=' => .name '='
      | _, _ => .brackets false
  | .name sign => if c == sign && next == some ']' then .brackets true else .name sign

/-- The text up to a mark on the same line, and what follows it.  A mark with a backslash
before it stands for itself; so does the end of a line, and a mark in brackets. -/
def upToMark (mark : Char) (isRegex : Bool) (inside : Inside) :
    List Char → Option (List Char × List Char)
  | [] | ['\\'] => none
  | '\\' :: d :: rest =>
    let kept := if d == 'n' && isRegex then ['\n']
      else if d == '\n' || (d == mark && (isRegex || d != '&')) then [d]
      else ['\\', d]
    (upToMark mark isRegex inside rest).map fun (text, rest) => (kept ++ text, rest)
  | c :: cs =>
    if c == mark && inside = .nothing then some ([], cs)
    else if c == '\n' then none
    else
      let after := if isRegex then inside.step c cs.head? else .nothing
      (upToMark mark isRegex after cs).map fun (text, rest) => (c :: text, rest)

/-- Takes the text up to a mark off. -/
def marked (mark : Char) (isRegex : Bool) (complaint : String) : Reading (List Char) := do
  let s ← get
  match upToMark mark isRegex .nothing s.cs with
  | some (text, rest) =>
    set { s with cs := rest }
    return text
  | none => do
    set { s with cs := s.cs.dropWhile (· != '\n') }
    flaw complaint

/-- The character that a letter after a backslash means in an expression or a replacement. -/
def letter? : Char → Option Char
  | 'n' => some '\n'
  | 't' => some '\t'
  | 'f' => some '\x0c'
  | 'v' => some '\x0b'
  | 'a' => some '\x07'
  | 'r' => some '\r'
  | _ => none

/-- The character that a letter for a base and digits after a backslash mean, and the number of
digits. -/
def code? (c : Char) (cs : List Char) : Option (Char × Nat) :=
  let form := match c with
    | 'x' => some (16, 2)
    | 'o' => some (8, 3)
    | 'd' => some (10, 3)
    | _ => none
  form.bind fun (base, most) =>
    let (_, rest) := Arithmetic.digitsIn base (cs.take most)
    let count := min most cs.length - rest.length
    if count = 0 then none
    else some (Char.ofNat ((Arithmetic.digitsIn base (cs.take count)).1 % 256), count)

/-- An expression with letters after backslashes taken for what they mean.  The fuel bounds the
number of characters. -/
def withLettersFrom : Nat → List Char → List Char
  | fuel + 1, '\\' :: c :: cs =>
    match letter? c, code? c cs with
    | some d, _ => d :: withLettersFrom fuel cs
    | none, some (d, count) =>
      let written := if "*.[\\^$".toList.contains d then ['\\', d] else [d]
      written ++ withLettersFrom fuel (cs.drop count)
    | none, none => '\\' :: c :: withLettersFrom fuel cs
  | fuel + 1, c :: cs => c :: withLettersFrom fuel cs
  | _, _ => []

def withLetters (cs : List Char) : List Char := withLettersFrom cs.length cs

/-- A list of characters with those after backslashes taken for what they mean. -/
def characters : List Char → List Char
  | '\\' :: '\\' :: cs => '\\' :: characters cs
  | '\\' :: c :: cs =>
    match letter? c with
    | some d => d :: characters cs
    | none => '\\' :: c :: characters cs
  | c :: cs => c :: characters cs
  | [] => []

/-- The program of an expression; an empty one stands for the last one that was used. -/
def regex (text : List Char) (ignoreCase : Bool) : Reading (Option Regex.Program) := do
  if text.isEmpty then return none
  else
    let form := if (← get).extended then Regex.Form.extended else .basic
    match Regex.parse form (withLetters text) with
    | .ok r => return some (if ignoreCase then r.ignoringCase else r).compile
    | .error f => flaw f.message

/-! ### Addresses -/

/-- Reads an address if one comes next. -/
def address? : Reading (Option Address) := do
  let found (mark : Char) : Reading (Option Address) := do
    let text ← marked mark true "unterminated address regex"
    let flags ← takeWhile fun c => c == 'I' || c == 'M'
    return some (.found (← regex text (flags.contains 'I')))
  match ← peek with
  | some '$' => do
    let _ ← take
    return some .last
  | some '/' => do
    let _ ← take
    found '/'
  | some '\\' => do
    let _ ← take
    match ← take with
    | some mark => found mark
    | none => flaw "unterminated address regex"
  | some c =>
    if Text.isDigit c then
      let n := (← number?).getD 0
      skipWhile isBlank
      if (← peek) == some '~' then
        let _ ← take
        return some (.step n ((← number?).getD 0))
      else return some (.number n)
    else return none
  | none => return none

/-- Reads the end of a range. -/
def rangeEnd : Reading RangeEnd := do
  skipWhile isBlank
  match ← peek with
  | some '+' => do
    let _ ← take
    return .after ((← number?).getD 0)
  | some '~' => do
    let _ ← take
    return .multiple ((← number?).getD 0)
  | _ =>
    match ← address? with
    | some a => return .at a
    | none => flaw "unexpected \x60,'"

/-- The addresses before a command, and whether they are negated. -/
def selection : Reading Selection := do
  let first ← address?
  skipWhile isBlank
  let stop ← if first.isSome && (← peek) == some ',' then do
      let _ ← take
      some <$> rangeEnd
    else pure none
  skipWhile isBlank
  match first, stop with
  | some (.number 0), some (.at (.found _)) => pure ()
  | some (.number 0), _ => do
    let _ ← take
    flaw "invalid usage of line address 0"
  | _, _ => pure ()
  let marks ← takeWhile fun c => c == '!' || isBlank c
  return { first := first, stop := stop, negated := marks.contains '!' }

/-! ### Commands -/

/-- The pieces of a replacement.  The fuel bounds the number of characters. -/
def piecesFrom : Nat → List Char → List Piece
  | fuel + 1, '\\' :: c :: cs =>
    match c with
    | 'U' => .casing .upper :: piecesFrom fuel cs
    | 'L' => .casing .lower :: piecesFrom fuel cs
    | 'E' => .casing .asIs :: piecesFrom fuel cs
    | 'u' => .casingOnce .upper :: piecesFrom fuel cs
    | 'l' => .casingOnce .lower :: piecesFrom fuel cs
    | '\n' => .text ['\n'] :: piecesFrom fuel cs
    | c =>
      if Text.isDigit c then .group (c.toNat - '0'.toNat) :: piecesFrom fuel cs
      else match code? c cs with
        | some (d, count) => .text [d] :: piecesFrom fuel (cs.drop count)
        | none => .text [(letter? c).getD c] :: piecesFrom fuel cs
  | fuel + 1, '&' :: cs => .group 0 :: piecesFrom fuel cs
  | fuel + 1, c :: cs => .text [c] :: piecesFrom fuel cs
  | _, _ => []

def pieces (cs : List Char) : List Piece := piecesFrom cs.length cs

/-- The name of a file or a label up to the end of a line. -/
def restOfLine : Reading String := do
  skipWhile isBlank
  return String.ofList (← takeWhile (· != '\n'))

/-- The name of a file. -/
def fileName : Reading String := do
  let name ← restOfLine
  if name.isEmpty then flaw "missing filename in r/R/w/W commands" else return name

/-- Reads the flags of a substitution.  The fuel bounds their number. -/
def flags (s : Substitution) (ignoreCase : Bool) : Nat → Reading (Substitution × Bool)
  | 0 => return (s, ignoreCase)
  | fuel + 1 => do
    match ← peek with
    | some 'g' => do
      let _ ← take
      if s.all then flaw "multiple \x60g' options to \x60s' command"
      flags { s with all := true } ignoreCase fuel
    | some 'p' => do
      let _ ← take
      if s.prints ≠ 0 then flaw "multiple \x60p' options to \x60s' command"
      flags { s with prints := s.prints + 1 } ignoreCase fuel
    | some 'i' | some 'I' => do
      let _ ← take
      flags s true fuel
    | some 'm' | some 'M' => do
      let _ ← take
      flags s ignoreCase fuel
    | some 'w' => do
      let _ ← take
      let file ← fileName
      return ({ s with file := some file }, ignoreCase)
    | some c =>
      if Text.isDigit c then
        match ← number? with
        | some 0 => flaw "number option to \x60s' command may not be zero"
        | n => flags { s with first := n.getD 1 } ignoreCase fuel
      else return (s, ignoreCase)
    | none => return (s, ignoreCase)

/-- Checks that a command ends where it has been read to. -/
def finish : Reading Unit := do
  skipWhile isBlank
  match ← peek with
  | none | some '}' | some '#' => return
  | some ';' | some '\n' => do
    let _ ← take
  | some _ => do
    let _ ← take
    flaw "extra characters after command"

/-- The text of a command up to the end of a line without a backslash before it. -/
def lineText : List Char → List Char × List Char
  | '\\' :: c :: cs =>
    let (text, rest) := lineText cs
    (c :: text, rest)
  | '\n' :: cs => (['\n'], cs)
  | c :: cs =>
    let (text, rest) := lineText cs
    (c :: text, rest)
  | [] => (['\n'], [])

/-- Reads the text of a command that adds one. -/
def addedText : Reading (List Char) := do
  skipWhile isBlank
  let s ← get
  if s.cs = ['\\'] then
    set { s with cs := [] }
    return []
  else if s.cs.isEmpty then flaw "expected \\ after \x60a', \x60c' or \x60i'"
  else
    let body := match s.cs with
      | '\\' :: rest =>
        match rest.dropWhile isBlank with
        | '\n' :: after => after
        | _ => rest
      | cs => cs
    let (text, rest) := lineText body
    set { s with cs := rest }
    return text

/-- A label, which goes to the end of its line. -/
def label : Reading String := do
  skipWhile isBlank
  return String.ofList (← takeWhile fun c => c != '\n' && c != ';' && !isBlank c && c != '}')

/-- Adds a command to the script. -/
def add (selection : Selection) (action : Action) : Reading Unit :=
  modify fun s => { s with commands := s.commands.push ⟨selection, action⟩ }

/-- Reads a command after its addresses. -/
def command (sel : Selection) (letter : Char) : Reading Unit := do
  let simple (action : Action) : Reading Unit := do
    add sel action
    finish
  match letter with
  | '{' => do
    let s ← get
    set { s with
      commands := s.commands.push ⟨sel, .block 0⟩, opened := s.commands.size :: s.opened }
  | '}' => do
    let s ← get
    match s.opened with
    | [] => flaw "unexpected \x60\x7d\x27"
    | n :: opened =>
      if sel.first.isSome then flaw "\x7d doesn't want any addresses"
      else
        let start := (s.commands[n]?).map (·.selection)
        set { s with
          commands := s.commands.setIfInBounds n ⟨start.getD {}, .block s.commands.size⟩
          opened := opened }
        finish
  | 's' => do
    match ← take with
    | none | some '\n' | some '\\' => flaw "unterminated \x60s' command"
    | some mark =>
      let pattern ← marked mark true "unterminated \x60s' command"
      let replacement ← marked mark false "unterminated \x60s' command"
      let (s, ignoreCase) ← flags { program := none, pieces := pieces replacement } false 50
      skipWhile isBlank
      match ← peek with
      | none | some ';' | some '\n' | some '}' | some '#' => pure ()
      | some _ => do
        let _ ← take
        flaw "unknown option to \x60s'"
      let program ← regex pattern ignoreCase
      let groups : Option (List Regex.Step) := program.map fun p =>
        p.toList.filter fun | .mark _ => true | _ => false
      let most := s.pieces.foldl (fun n piece => match piece with
        | .group k => max n k
        | _ => n) 0
      if groups.any fun g => g.length / 2 < most then
        flaw s!"invalid reference \\{most} on \x60s' command's RHS"
      else simple (.substitute { s with program := program })
  | 'y' => do
    match ← take with
    | none => flaw "unterminated \x60y' command"
    | some mark =>
      let old := characters (← marked mark false "unterminated \x60y' command")
      let new := characters (← marked mark false "unterminated \x60y' command")
      if old.length ≠ new.length then flaw "strings for \x60y' command are different lengths"
      else simple (.translate (old.zip new))
  | 'd' => simple .delete
  | 'D' => simple .deleteFirst
  | 'p' => simple .print
  | 'P' => simple .printFirst
  | 'n' => simple .next
  | 'N' => simple .appendNext
  | 'g' => simple .get
  | 'G' => simple .appendHeld
  | 'h' => simple .hold
  | 'H' => simple .appendToHeld
  | 'x' => simple .exchange
  | '=' => simple .number
  | 'l' => do
    let _ ← number?
    simple .list
  | 'q' | 'Q' => do
    skipWhile isBlank
    let status := (← number?).getD 0
    if sel.stop.isSome then flaw "command only uses one address"
    else simple (.quit status (letter == 'q'))
  | 'a' => do add sel (.append (← addedText))
  | 'i' => do add sel (.insert (← addedText))
  | 'c' => do add sel (.change (← addedText))
  | 'r' => do add sel (.read (← fileName))
  | 'w' => do add sel (.write (← fileName))
  | 'z' => simple .clear
  | 'F' => simple .showFile
  | 'b' => do
    let name ← label
    simple (.jump name)
  | 't' => do
    let name ← label
    simple (.jumpIfReplaced name)
  | 'T' => do
    let name ← label
    simple (.jumpUnlessReplaced name)
  | ':' => do
    if sel.first.isSome then flaw ": doesn't want any addresses"
    else
      skipWhile isBlank
      let name ← takeWhile fun c => c != '\n' && c != ';' && !isBlank c
      if name.isEmpty then flaw "\":\" lacks a label"
      else simple (.label (String.ofList name))
  | c => flaw s!"unknown command: \x60{String.ofList [c]}'"

/-- Reads commands to the end.  The fuel bounds their number. -/
def commands : Nat → Reading Unit
  | 0 => return
  | fuel + 1 => do
    skipWhile fun c => isBlank c || c == '\n' || c == ';'
    match ← peek with
    | none =>
      match (← get).opened with
      | [] => return
      | _ => throw "-e expression #1, char 0: unmatched \x60\x7b\x27"
    | some '#' => do
      skipWhile (· != '\n')
      commands fuel
    | some _ => do
      let sel ← selection
      match ← take with
      | none => flaw "missing command"
      | some letter => do
        command sel letter
        commands fuel

/-- The label that a command jumps to. -/
def Action.target? : Action → Option String
  | .jump name | .jumpIfReplaced name | .jumpUnlessReplaced name =>
    if name.isEmpty then none else some name
  | _ => none

/-- The place of a label. -/
def Script.place? (script : Script) (name : String) : Option Nat :=
  script.findIdx? fun c => match c.action with
    | .label other => other == name
    | _ => false

/-- Reads a script. -/
def Script.read? (extended : Bool) (text : String) : Except String Script := do
  let cs := text.toList
  let (_, s) ← (commands (cs.length + 1)).run { cs := cs, size := cs.length, extended := extended }
  return s.commands

/-- A label that a command jumps to but that is nowhere. -/
def Script.missingLabel? (script : Script) : Option String :=
  script.findSome? fun c =>
    c.action.target?.bind fun name => if (script.place? name).isNone then some name else none

end MutationTesting.Shell.Editor
