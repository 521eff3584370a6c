import MutationTesting.Shell.Editor.Reading
import MutationTesting.Shell.Tool.Stream

/-!
# Editing streams

`Session.run` lets a script work on lines, one cycle after the other, and `sed` is the tool that
does so with files.
-/

namespace MutationTesting.Shell.Editor

open Text (Regex)

/-- What is printed at the end of a cycle. -/
inductive Queued where
  | text (cs : List Char)
  | file (path : String)

/-- How far editing has come. -/
structure Session where
  /-- The lines that have not been read, with their ends. -/
  rest : List (List Char)
  line : Nat := 0
  /-- The text that is worked on. -/
  space : List Char := []
  /-- Whether the line that was read last had an end. -/
  ended : Bool := true
  held : List Char := []
  queue : List Queued := []
  /-- What was printed, the last first. -/
  out : List String := []
  /-- Whether a line was printed whose end is missing. -/
  unended : Bool := false
  /-- The last line of the ranges that are open, by the number of the command. -/
  ranges : List (Nat × RangeEnd) := []
  replaced : Bool := false
  lastProgram : Option Regex.Program := none
  disk : Disk
  /-- The files that have been written to. -/
  written : List String := []
  status : Nat := 0
  finished : Bool := false
  quiet : Bool
  /-- The name of the file, or of the first one of a stream. -/
  file : String

/-- What comes after a command. -/
inductive After where
  | next
  | jump (place : Nat)
  /-- Ends the cycle; the text is printed if that is asked for. -/
  | finish (printing : Bool)
  /-- Starts a cycle without reading a line. -/
  | restart

namespace Session

/-- Prints a text; the end of a line that is missing is made up for first. -/
def print (s : Session) (text : String) (ended : Bool) : Session :=
  let gap := if s.unended then ["\n"] else []
  { s with out := text :: gap ++ s.out, unended := !ended }

/-- Prints a line. -/
def printLine (s : Session) (cs : List Char) : Session :=
  s.print (String.ofList (if s.ended then cs ++ ['\n'] else cs)) s.ended

def isLast (s : Session) : Bool := s.rest.isEmpty

/-- Reads a line into the text that is worked on. -/
def readLine (s : Session) : Option (List Char × Session) :=
  match s.rest with
  | [] => none
  | line :: rest =>
    let ended := line.getLast? == some '\n'
    some (if ended then line.dropLast else line,
      { s with rest := rest, line := s.line + 1, ended := ended })

/-- Prints what has been put aside for the end of a cycle. -/
def flush (s : Session) : Session :=
  let flushed := s.queue.reverse.foldl (fun (s : Session) q =>
    match q with
    | .text cs => s.print (String.ofList cs) true
    | .file path =>
      match Process.readFile s.disk path with
      | .ok text => if text.isEmpty then s else s.print text (text.endsWith "\n")
      | .error _ => s) s
  { flushed with queue := [] }

/-- Adds a line to a file; `/dev/stdout` is the output. -/
def writeLine (s : Session) (path : String) (cs : List Char) : Session :=
  if path = "/dev/stdout" then s.printLine cs
  else
    let line := String.ofList (if s.ended then cs ++ ['\n'] else cs)
    let before := if s.written.contains path then
        (Process.readFile s.disk path).toOption.getD "" else ""
    match Process.writeFile s.disk path (before ++ line) with
    | .ok d => { s with disk := d, written := path :: s.written }
    | .error _ => s

/-! ### Addresses -/

/-- Whether the current line is at an address. -/
def isAt (s : Session) (a : Address) : Bool × Session :=
  match a with
  | .number n => (s.line == n, s)
  | .last => (s.isLast, s)
  | .step first step =>
    (if step = 0 then s.line == first
      else decide (first ≤ s.line) && (s.line - first) % step == 0, s)
  | .found program =>
    match program.or s.lastProgram with
    | some p => (Regex.occursIn p s.space, { s with lastProgram := some p })
    | none => (false, s)

/-- Notes that a range has ended. -/
def closeRange (s : Session) (i : Nat) : Session :=
  { s with ranges := s.ranges.filter (·.1 != i) }

/-- Whether the current line is selected by the command with a number. -/
def selects (s : Session) (i : Nat) (sel : Selection) : Bool × Session :=
  let (found, s) : Bool × Session :=
    match sel.first, sel.stop with
    | none, _ => (true, s)
    | some a, none => s.isAt a
    | some a, some stop =>
      match s.ranges.lookup i with
      | some (.at (.number n)) =>
        if s.line < n then (true, s) else (s.line == n, s.closeRange i)
      | some (.at b) =>
        let (found, s) := s.isAt b
        (true, if found then s.closeRange i else s)
      | some _ => (true, s.closeRange i)
      | none =>
        let (found, s) := match a with
          | .number 0 => (s.line == 1, s)
          | a => s.isAt a
        if !found then (false, s)
        else
          let opened (e : RangeEnd) : Session := { s with ranges := (i, e) :: s.ranges }
          match a, stop with
          | .number 0, .at b =>
            let (ends, s) := s.isAt b
            (true, if ends then s else { s with ranges := (i, .at b) :: s.ranges })
          | _, .at (.number n) => (true, if n ≤ s.line then s else opened (.at (.number n)))
          | _, .after n => (true, if n = 0 then s else opened (.at (.number (s.line + n))))
          | _, .multiple n =>
            let stop := if n = 0 then s.line else (s.line + n - 1) / n * n
            (true, if stop ≤ s.line then s else opened (.at (.number stop)))
          | _, .at b => (true, opened (.at b))
  (found != sel.negated, s)

/-! ### Substitution -/

/-- Text that pieces are put together to, with the change of letters that is in force. -/
structure Cased where
  /-- The characters so far, the last one first. -/
  done : List Char := []
  casing : Casing := .asIs
  once : Option Casing := none

def Casing.apply (k : Casing) (c : Char) : Char :=
  match k with
  | .upper => c.toUpper
  | .lower => c.toLower
  | .asIs => c

def Cased.add (k : Cased) (cs : List Char) : Cased :=
  cs.foldl (fun k c => { k with
    done := (match k.once with
      | some once => Casing.apply once c
      | none => Casing.apply k.casing c) :: k.done
    once := none }) k

/-- What a match is replaced by. -/
def replacement (pieces : List Piece) (m : Regex.Match) (subject : List Char) : List Char :=
  (pieces.foldl (fun (k : Cased) piece =>
    match piece with
    | .text cs => k.add cs
    | .group n => k.add (m.text subject n)
    | .casing casing => { k with casing := casing, once := none }
    | .casingOnce casing => { k with once := some casing }) {}).done.reverse

/-- Replaces matches from a place on, the first of which has a number.  Gives the text from
there on and whether something was replaced.  The fuel bounds the number of matches. -/
def replaceFrom (p : Regex.Program) (sub : Substitution) (subject : List Char) :
    Nat → Nat → Nat → Option Nat → List Char × Bool
  | 0, _, start, _ => (subject.drop start, false)
  | fuel + 1, number, start, previous =>
    match Regex.search? p subject start with
    | none => (subject.drop start, false)
    | some m =>
      let between := (subject.drop start).take (m.start - start)
      if m.stop = m.start && previous == some m.start then
        -- an empty match right after another one does not count
        match subject.drop m.start with
        | [] => (between, false)
        | c :: _ =>
          let (rest, done) := replaceFrom p sub subject fuel number (m.start + 1) none
          (between ++ c :: rest, done)
      else
        let counts := number == sub.first || (sub.all && sub.first ≤ number)
        let text := if counts then replacement sub.pieces m subject
          else (subject.drop m.start).take (m.stop - m.start)
        if counts && !sub.all then (between ++ text ++ subject.drop m.stop, true)
        else if m.stop = m.start then
          match subject.drop m.start with
          | [] => (between ++ text, counts)
          | c :: _ =>
            let (rest, done) := replaceFrom p sub subject fuel (number + 1) (m.start + 1) none
            (between ++ text ++ c :: rest, counts || done)
        else
          let (rest, done) := replaceFrom p sub subject fuel (number + 1) m.stop (some m.stop)
          (between ++ text ++ rest, counts || done)

/-- Replaces matches on the line, and notes whether there was one. -/
def substitute (s : Session) (sub : Substitution) : Session :=
  match sub.program.or s.lastProgram with
  | none => s
  | some p =>
    let (text, done) := replaceFrom p sub s.space (s.space.length + 2) 1 0 none
    let s := { s with lastProgram := some p }
    if !done then s
    else
      let s := { s with space := text, replaced := true }
      let s := (List.range sub.prints).foldl (fun (s : Session) _ => s.printLine s.space) s
      match sub.file with
      | some path => s.writeLine path s.space
      | none => s

/-! ### Commands -/

/-- A text in a form in which all its characters can be seen, in lines of 69 characters. -/
def listed (cs : List Char) : String :=
  let shown (c : Char) : String :=
    match [('\\', "\\\\"), ('\x07', "\\a"), ('\x08', "\\b"), ('\x0c', "\\f"), ('\n', "\\n"),
      ('\r', "\\r"), ('\t', "\\t"), ('\x0b', "\\v")].lookup c with
    | some text => text
    | none =>
      if ' ' ≤ c && c ≤ '~' then String.ofList [c]
      else "\\" ++ padLeft 3 '0' (String.ofList (Nat.toDigits 8 c.toNat))
  let (lines, last) := cs.foldl (fun (lines, line) c =>
    let text := shown c
    if 69 < line.length + text.length then (lines ++ line ++ "\\\n", text)
    else (lines, line ++ text)) ("", "")
  lines ++ last ++ "$\n"

/-- The text before and after the first end of a line. -/
def splitFirst (cs : List Char) : List Char × Option (List Char) :=
  let first := cs.takeWhile (· != '\n')
  match cs.drop first.length with
  | _ :: rest => (first, some rest)
  | [] => (first, none)

/-- Does what a selected command says. -/
def act (s : Session) (script : Script) (i : Nat) (c : Command) : Session × After :=
  let jump (name : String) : After :=
    if name.isEmpty then .finish true
    else match script.place? name with
      | some place => .jump place
      | none => .next
  match c.action with
  | .block _ | .nothing | .label _ => (s, .next)
  | .substitute sub => (s.substitute sub, .next)
  | .translate table => ({ s with space := s.space.map fun ch => (table.lookup ch).getD ch }, .next)
  | .delete => (s, .finish false)
  | .deleteFirst =>
    match splitFirst s.space with
    | (_, none) => (s, .finish false)
    | (_, some rest) => ({ s with space := rest }, .restart)
  | .print => (s.printLine s.space, .next)
  | .printFirst =>
    let (first, rest) := splitFirst s.space
    let printed :=
      if rest.isSome then s.print (String.ofList (first ++ ['\n'])) true else s.printLine first
    (printed, .next)
  | .next =>
    let printed := if s.quiet then s else s.printLine s.space
    match printed.flush.readLine with
    | some (line, s) => ({ s with space := line }, .next)
    | none => ({ s with finished := true }, .finish true)
  | .appendNext =>
    match s.flush.readLine with
    | some (line, s) => ({ s with space := s.space ++ '\n' :: line }, .next)
    | none => ({ s with finished := true }, .finish true)
  | .get => ({ s with space := s.held }, .next)
  | .appendHeld => ({ s with space := s.space ++ '\n' :: s.held }, .next)
  | .hold => ({ s with held := s.space }, .next)
  | .appendToHeld => ({ s with held := s.held ++ '\n' :: s.space }, .next)
  | .exchange => ({ s with space := s.held, held := s.space }, .next)
  | .append text => ({ s with queue := .text text :: s.queue }, .next)
  | .insert text => (s.print (String.ofList text) true, .next)
  | .change text =>
    let isOpen := (s.ranges.lookup i).isSome && !c.selection.negated
    (if isOpen then s else s.print (String.ofList text) true, .finish false)
  | .quit status printing => ({ s with status := status, finished := true }, .finish printing)
  | .number => (s.print s!"{s.line}\n" true, .next)
  | .showFile => (s.print (s.file ++ "\n") true, .next)
  | .clear => ({ s with space := [] }, .next)
  | .list => (s.print (listed s.space) true, .next)
  | .read file => ({ s with queue := .file file :: s.queue }, .next)
  | .write file => (s.writeLine file s.space, .next)
  | .jump name => (s, jump name)
  | .jumpIfReplaced name =>
    if s.replaced then ({ s with replaced := false }, jump name) else (s, .next)
  | .jumpUnlessReplaced name =>
    if s.replaced then ({ s with replaced := false }, .next) else (s, jump name)

/-- Runs commands from one on.  Gives whether the text is printed at the end of the cycle, and
whether a line is read for the next one.  The fuel bounds the number of commands. -/
def cycle (script : Script) : Nat → Nat → Session → Session × Bool × Bool
  | 0, _, s => ({ s with finished := true }, false, true)
  | fuel + 1, i, s =>
    match script[i]? with
    | none => (s, true, true)
    | some c =>
      let (selected, s) := s.selects i c.selection
      match c.action, selected with
      | .block stop, false => cycle script fuel stop s
      | _, false => cycle script fuel (i + 1) s
      | _, true =>
        match s.act script i c with
        | (s, .next) => cycle script fuel (i + 1) s
        | (s, .jump place) => cycle script fuel place s
        | (s, .finish printing) => (s, printing, true)
        | (s, .restart) => (s, false, false)

/-- Runs cycles to the end of the lines.  The fuel bounds their number. -/
def run (script : Script) : Nat → Bool → Session → Session
  | 0, _, s => s
  | fuel + 1, reads, s =>
    let start := if reads then
        (s.readLine).map fun (line, s) => { s with space := line, replaced := false }
      else some s
    match start with
    | none => s
    | some s =>
      let (s, printing, reads) := cycle script 100000 0 s
      let s := (if printing && !s.quiet then s.printLine s.space else s).flush
      if s.finished then s else run script fuel reads s

end Session

end Editor

/-! ### The tool -/

/-- Lines with their ends, as characters. -/
def endedLines (text : String) : List (List Char) := (wholeLines text).map String.toList

/-- The number of cycles that lines can take. -/
def cycleBudget (lines : List (List Char)) : Nat := 2 * lines.length + 100000

/-- Edits files one by one and writes them back; a suffix asks for copies of what they were. -/
def editInPlace (c : ToolCall) (script : Editor.Script) (quiet : Bool) (suffix : String)
    (files : List String) : ToolResult :=
  let (good, err) := goodSources c (c.sources files 0) fun name (e : FileError) =>
    if e = .isADirectory then s!"couldn't edit {name}: not a regular file"
    else s!"can't read {name}: {e.reason}"
  let edit := fun (acc : Disk × Nat × Bool) (entry : String × String) =>
    let (d, _, stopped) := acc
    let (name, text) := entry
    if stopped then acc
    else
      let lines := endedLines text
      let s := Editor.Session.run script (cycleBudget lines) true
        { rest := lines, disk := d, quiet := quiet, file := name }
      let left := String.join (s.rest.map String.ofList)
      let d := if suffix.isEmpty then s.disk
        else (Process.writeFile s.disk (name ++ suffix) text).toOption.getD s.disk
      let d := (Process.writeFile d name (String.join s.out.reverse ++ left)).toOption.getD d
      (d, s.status, s.finished)
  let (disk, status, _) := good.foldl edit (c.disk, 0, false)
  { disk := disk, err := err, status := if err.isEmpty then status else 4 }

/-- Edits files as one stream. -/
def editStream (c : ToolCall) (script : Editor.Script) (quiet : Bool) (files : List String) :
    ToolResult :=
  let (good, err) := goodSources c (c.sources files 0) fun name (e : FileError) =>
    if e = .isADirectory then s!"read error on {name}: {e.reason}"
    else s!"can't read {name}: {e.reason}"
  let lines := good.flatMap fun (_, text) => endedLines text
  let s := Editor.Session.run script (cycleBudget lines) true
    { rest := lines, disk := c.disk, quiet := quiet, file := files.headD "-" }
  let canStop := script.any fun command => match command.action with
    | .quit _ _ => true
    | _ => false
  { disk := s.disk, out := String.join s.out.reverse, err := err
    status := if s.status ≠ 0 then s.status else if err.isEmpty then 0 else 2
    appetite := if !readsInput files then .none
      else if !canStop then .all
      else if s.finished then .satisfied else .more }

/-- The parts of a script that options give, or why one cannot be read. -/
def editorTexts (c : ToolCall) (o : Options) : Except String (List String) :=
  (o.given.filter fun (letter, _) => letter == 'e' || letter == 'f').mapM fun (letter, value) =>
    if letter == 'e' then .ok value
    else match Process.readFile c.disk value with
      | .ok text =>
        .ok (if text.endsWith "\n" then String.ofList text.toList.dropLast else text)
      | .error e => .error s!"couldn't open file {value}: {e.reason}"

/-- The options of `sed`. -/
def editorTable : OptionTable where
  plain := "nrEsuzIb"
  valued := "efl"
  long := [
    ("quiet", 'n'), ("silent", 'n'), ("regexp-extended", 'E'), ("expression", 'e'), ("file", 'f'),
    ("separate", 's'), ("null-data", 'z'), ("unbuffered", 'u'), ("posix", 'b')]

/-- Edits lines by a script. -/
def sed : Tool := fun c =>
  -- an option for editing in place has its argument in the same word
  let isInPlace (arg : String) : Bool := arg.startsWith "-i" || arg.startsWith "--in-place"
  let args := c.args.map fun arg => if isInPlace arg then "-I" else arg
  { c with args := args }.withOptions editorTable 1 fun o =>
    let hasScript := o.has 'e' || o.has 'f'
    match editorTexts c o with
    | .error text => c.fails 1 text
    | .ok texts =>
      if !hasScript && o.operands.isEmpty then
        { disk := c.disk, status := 1
          err := s!"Usage: {c.name} [OPTION]... \x7bscript-only-if-no-other-script\x7d "
            ++ "[input-file]...\n" }
      else
        let text := if hasScript then "\n".intercalate texts else o.operands.headD ""
        let files := if hasScript then o.operands else o.operands.tail
        let quiet := o.has 'n' || text = "#n" || text.startsWith "#n\n"
        match Editor.Script.read? (o.has 'E' || o.has 'r') text with
        | .error text => c.fails 1 text
        | .ok script =>
          match script.missingLabel?, c.args.find? isInPlace with
          | some label, _ => c.fails 4 s!"can't find label for jump to \x60{label}'"
          | none, none => editStream c script quiet files
          | none, some arg =>
            let suffix := match arg.toList with
              | '-' :: 'i' :: cs => String.ofList cs
              | cs => String.ofList ((cs.dropWhile (· != '=')).drop 1)
            editInPlace c script quiet suffix files

end MutationTesting.Shell
