import MutationTesting.Shell.Pattern
import MutationTesting.Shell.Tool.Stream

/-!
# Searching lines

`grep` prints the lines of files in which a regular expression occurs, or counts them, or
names the files.
-/

namespace MutationTesting.Shell

open Text (Regex)

/-- What `grep` does with the lines that it finds. -/
structure Search where
  program : Regex.Program
  options : Options
  /-- The most lines that are looked for. -/
  most : Option Nat
  before : Nat
  after : Nat
  named : Bool

/-- An expression with brackets in the place of what stands for digits. -/
def withDigits : List Char → List Char
  | '\\' :: 'd' :: cs => "[0-9]".toList ++ withDigits cs
  | '\\' :: 'D' :: cs => "[^0-9]".toList ++ withDigits cs
  | '\\' :: c :: cs => '\\' :: c :: withDigits cs
  | c :: cs => c :: withDigits cs
  | [] => []

/-- Whether a text is the name of a class of characters with one pair of brackets alone. -/
def isBareClass (text : String) : Bool :=
  text.startsWith "[:" && text.endsWith ":]" && !((text.toList.drop 1).contains '[')

/-- The expression for patterns one of which is to occur. -/
def grepRegex (o : Options) (form : Option Char) (patterns : List String) :
    Except Regex.Flaw Regex := do
  let parsed ← patterns.mapM fun text =>
    match form with
    | some 'F' => .ok (Regex.literal text.toList)
    | some 'E' => Regex.parse .lenient text.toList
    | some 'P' => Regex.parse .extended (withDigits text.toList)
    | _ => Regex.parse .basic text.toList
  let whole (r : Regex) : Regex :=
    if o.has 'x' then .both (.place .start) (.both r (.place .stop))
    else if o.has 'w' then .both (.place .noWordBefore) (.both r (.place .noWordAfter))
    else r
  let parsed := parsed.map fun r => whole (if o.has 'i' || o.has 'y' then r.ignoringCase else r)
  return match parsed.reverse with
    | [] => .one { ranges := [] }
    | last :: rest => rest.foldl (fun all r => .either r all) last

/-- All matches in a line that are not empty, from a place on.  The fuel bounds their number. -/
def allMatches (p : Regex.Program) (line : List Char) : Nat → Nat → List (List Char)
  | 0, _ => []
  | fuel + 1, start =>
    match Regex.search? p line start with
    | none => []
    | some m =>
      if m.stop = m.start then
        if m.start < line.length then allMatches p line fuel (m.start + 1) else []
      else (line.drop m.start).take (m.stop - m.start) :: allMatches p line fuel m.stop

/-- What comes of a search in one text. -/
structure Findings where
  out : List String := []
  count : Nat := 0
  /-- The lines before that may still be shown, the last one first. -/
  pending : List (Nat × List Char) := []
  /-- The number of lines that are still shown after a match. -/
  trailing : Nat := 0
  /-- The number of the last line that was shown. -/
  shown : Nat := 0
  stopped : Bool := false

/-- A line as it is shown. -/
def Search.row (s : Search) (name : String) (mark : String) (number : Nat) (line : List Char) :
    String :=
  (if s.named then name ++ mark else "")
    ++ (if s.options.has 'n' then toString number ++ mark else "") ++ String.ofList line ++ "\n"

/-- Takes a line. -/
def Search.step (s : Search) (name : String) (f : Findings) (number : Nat) (line : List Char) :
    Findings :=
  let o := s.options
  let isFound := !f.stopped && Regex.occursIn s.program line != o.has 'v'
  let printsLines := !(o.has 'c' || o.has 'l' || o.has 'L' || o.has 'q')
  let hasContext := 0 < s.before || 0 < s.after
  if isFound then
    let count := f.count + 1
    let stopped := s.most.any (· ≤ count)
    if !printsLines then { f with count := count, stopped := stopped }
    else if o.has 'o' then
      let rows := if o.has 'v' then []
        else (allMatches s.program line (line.length + 1) 0).map (s.row name ":" number)
      { f with count := count, stopped := stopped, out := rows.reverse ++ f.out }
    else
      let earlier := f.pending.take s.before
      let firstShown := number - earlier.length
      let gap := if hasContext && 0 < f.shown && f.shown + 1 < firstShown then ["--\n"] else []
      let context := earlier.map fun (n, l) => s.row name "-" n l
      { f with
        count := count, stopped := stopped, shown := number, trailing := s.after, pending := []
        out := s.row name ":" number line :: context ++ gap ++ f.out }
  else if printsLines && 0 < f.trailing && !(o.has 'o') then
    { f with out := s.row name "-" number line :: f.out, trailing := f.trailing - 1, shown := number
             pending := [] }
  else { f with pending := if s.before = 0 then [] else (number, line) :: f.pending }

/-- Searches one text. -/
def Search.run (s : Search) (name : String) (text : String) : Findings :=
  ((lineChars text).zipIdx.foldl (fun f (line, i) =>
    if f.stopped && f.trailing = 0 then f else s.step name f (i + 1) line)
    ({ stopped := s.most == some 0 } : Findings))

/-- The files at a path and below it, as they are named from there.  The fuel bounds the depth. -/
def filesBelow (d : Disk) : Nat → String → List String
  | 0, _ => []
  | fuel + 1, path =>
    match d.find (Text.decode path) with
    | .ok (location, .directory) =>
      (d.namesIn location).flatMap fun name =>
        let start := if path.isEmpty || path.endsWith "/" then path else path ++ "/"
        filesBelow d fuel (start ++ Text.encode name)
    | .ok _ => [path]
    | .error _ => [path]

/-- The options of `grep`. -/
def grepTable : OptionTable where
  plain := "qcvinFEGPxwslLohHrRayzZTbUI"
  valued := "efmABCdDXY"
  long := [
    ("quiet", 'q'), ("silent", 'q'), ("count", 'c'), ("invert-match", 'v'), ("ignore-case", 'i'),
    ("line-number", 'n'), ("fixed-strings", 'F'), ("extended-regexp", 'E'), ("basic-regexp", 'G'),
    ("perl-regexp", 'P'), ("line-regexp", 'x'), ("word-regexp", 'w'), ("no-messages", 's'),
    ("files-with-matches", 'l'), ("files-without-match", 'L'), ("only-matching", 'o'),
    ("no-filename", 'h'), ("with-filename", 'H'), ("recursive", 'r'), ("text", 'a'),
    ("regexp", 'e'), ("file", 'f'), ("max-count", 'm'), ("after-context", 'A'),
    ("before-context", 'B'), ("context", 'C'), ("include", 'X'), ("exclude", 'Y'), ("color", 'I'),
    ("colour", 'I'), ("byte-offset", 'b')]

/-- The patterns that options give, or why they cannot be read. -/
def givenPatterns (c : ToolCall) (o : Options) : Except String (List String) := do
  let listed ← (o.values 'f').mapM fun path =>
    match Process.readFile c.disk path with
    | .ok text => .ok (linesOf text)
    | .error e => .error s!"{path}: {e.reason}"
  return (o.values 'e').flatMap (fun text => (splitAtNewlines text).map String.ofList)
    ++ listed.flatten

/-- The paths that are searched; whether a name is wanted may depend on options. -/
def grepPaths (c : ToolCall) (o : Options) (operands : List String) : List String :=
  if o.has 'r' || o.has 'R' then
    let isWanted (path : String) : Bool :=
      let name := String.ofList (path.toList.reverse.takeWhile (· != '/')).reverse
      let included := o.values 'X'
      (included.isEmpty || included.any fun p => (Pattern.ofText p).isMatch name)
        && !(o.values 'Y').any fun p => (Pattern.ofText p).isMatch name
    let roots := if operands.isEmpty then (c.disk.namesIn c.disk.home).map Text.encode else operands
    (roots.flatMap (filesBelow c.disk 50)).filter isWanted
  else operands

/-- What a search found in a text with a name. -/
structure GrepPart where
  name : String
  isBinary : Bool
  findings : Findings

/-- What is printed of a part, in reverse order. -/
def GrepPart.rows (part : GrepPart) (o : Options) (named : Bool) : List String :=
  let f := part.findings
  if o.has 'q' then []
  else if o.has 'l' then if 0 < f.count then [part.name ++ "\n"] else []
  else if o.has 'L' then if f.count = 0 then [part.name ++ "\n"] else []
  else if o.has 'c' then [(if named then part.name ++ ":" else "") ++ toString f.count ++ "\n"]
  else if part.isBinary then []
  else f.out

/-- What is said of a part that is no text. -/
def GrepPart.complaint (part : GrepPart) (c : ToolCall) (o : Options) : String :=
  let shows := !(o.has 'q' || o.has 'l' || o.has 'L' || o.has 'c')
  if part.isBinary && 0 < part.findings.count && shows then
    c.message s!"{part.name}: binary file matches"
  else ""

/-- Searches paths for an expression. -/
def grepIn (c : ToolCall) (o : Options) (program : Regex.Program) (operands : List String) :
    ToolResult :=
  let recursive := o.has 'r' || o.has 'R'
  let paths := grepPaths c o operands
  let mode := o.last? "hH"
  let named := mode == some 'H' || (mode != some 'h' && (1 < paths.length || recursive))
  let number (letter : Char) : Option Nat := (o.value? letter).bind fun s => Text.digits? s.toList
  let around := (number 'C').getD 0
  let most := if o.has 'q' || o.has 'l' || o.has 'L' then some 1 else number 'm'
  let search : Search := {
    program := program, options := o, most := most, named := named
    before := (number 'B').getD around, after := (number 'A').getD around }
  let (good, err) := goodSources c (if recursive && paths.isEmpty then [] else c.sources paths 0)
    plainComplaint
  let parts : List GrepPart := good.map fun (name, text) =>
    let name := if name = "-" then "(standard input)" else name
    ⟨name, !(o.has 'a') && text.toList.contains '\x00', search.run name text⟩
  let isFound := parts.any fun part =>
    if o.has 'L' then part.findings.count = 0 else 0 < part.findings.count
  let isSatisfied := parts.any fun part => part.findings.stopped
  { disk := c.disk
    out := String.join (parts.flatMap fun part => (part.rows o named).reverse)
    err := (if o.has 's' then "" else err) ++ String.join (parts.map fun part => part.complaint c o)
    status := if isFound && o.has 'q' then 0 else if !err.isEmpty then 2
      else if isFound then 0 else 1
    appetite := if recursive || !readsInput paths then .none
      else if most.isNone then .all
      else if isSatisfied then .satisfied else .more }

/-- Arguments of which a number alone is one of lines around a match. -/
def withoutBareNumbers (args : List String) : List String :=
  (args.filter fun arg => !arg.startsWith "--color").map fun arg =>
    match arg.toList with
    | '-' :: d :: ds => if (d :: ds).all Text.isDigit then "-C" ++ String.ofList (d :: ds) else arg
    | _ => arg

/-- Runs a search with a form of expressions that options may change. -/
def grepWith (form : Option Char) : Tool := fun c =>
  { c with args := withoutBareNumbers c.args }.withOptions grepTable 2 fun o =>
    let isGiven := o.has 'e' || o.has 'f'
    match givenPatterns c o with
    | .error text => c.fails 2 text
    | .ok given =>
      if !isGiven && o.operands.isEmpty then
        { disk := c.disk, status := 2
          err := s!"Usage: {c.name} [OPTION]... PATTERNS [FILE]...\n"
            ++ s!"Try '{c.name} --help' for more information.\n" }
      else
        let patterns := if isGiven then given
          else (splitAtNewlines (o.operands.headD "")).map String.ofList
        if patterns.any isBareClass && (o.last? "FEGP") != some 'F' && form != some 'F' then
          c.fails 2 "character class syntax is [[:space:]], not [:space:]"
        else match grepRegex o ((o.last? "FEGP").or form) patterns with
        | .error flaw => c.fails 2 flaw.message
        | .ok regex => grepIn c o regex.compile (if isGiven then o.operands else o.operands.tail)

/-- Prints the lines that match a pattern. -/
def grep : Tool := grepWith none

/-- Prints the lines that match an extended pattern. -/
def egrep : Tool := grepWith (some 'E')

/-- Prints the lines that hold a text. -/
def fgrep : Tool := grepWith (some 'F')

end MutationTesting.Shell
