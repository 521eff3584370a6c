import MutationTesting.Shell.Tool
import MutationTesting.Text.CharSet

/-!
# Files as streams

Tools that print files or parts of them: `cat`, `tac`, `rev`, `head`, `tail`, `nl`, `fold` and
`tee`, and `wc`, which counts what is in them.
-/

namespace MutationTesting.Shell

/-- What was read, and complaints about what could not be. -/
def goodSources (c : ToolCall) (opened : List Opened) (complaint : String → FileError → String) :
    List (String × String) × String :=
  opened.foldr (fun s (good, err) =>
    match s.text with
    | .ok text => ((s.name, text) :: good, err)
    | .error e => (good, c.message (complaint s.name e) ++ err)) ([], "")

def plainComplaint (name : String) (e : FileError) : String := s!"{name}: {e.reason}"

/-- The complaint of tools that open a file before they read it. -/
def readingComplaint (name : String) (e : FileError) : String :=
  if e = .isADirectory then s!"error reading '{name}': {e.reason}"
  else s!"cannot open '{name}' for reading: {e.reason}"

/-- A tool that makes a text of the texts that it reads. -/
def textTool (c : ToolCall) (paths : List String) (make : List String → String)
    (complaint : String → FileError → String) (status : Nat) : ToolResult :=
  let (good, err) := goodSources c (c.sources paths 0) complaint
  { disk := c.disk, out := make (good.map (·.2)), err := err, appetite := appetiteFor paths
    status := if err.isEmpty then 0 else status }

/-! ### Whole files -/

/-- A character that is not printable, in a form that is. -/
def visible (showTabs : Bool) (ch : Char) : String :=
  let n := ch.toNat
  let low (n : Nat) : String :=
    if n < 32 then "^" ++ String.ofList [Char.ofNat (n + 64)]
    else if n = 127 then "^?" else String.ofList [Char.ofNat n]
  if ch == '\n' || (ch == '\t' && !showTabs) then String.ofList [ch]
  else if n < 128 then low n else "M-" ++ low (n - 128)

/-- The lines of `cat` with its options applied; `n` is the number of the next one. -/
def catLines (o : Options) : Nat → Bool → List String → String
  | _, _, [] => ""
  | n, afterBlank, line :: lines =>
    let isBlank := line == "\n"
    if o.has 's' && isBlank && afterBlank then catLines o n true lines
    else
      let counts := if o.has 'b' then !isBlank else o.has 'n'
      let number := if counts then padLeft 6 ' ' (toString n) ++ "\t" else ""
      let body := if o.has 'v' then String.join (line.toList.map (visible (o.has 'T')))
        else if o.has 'T' then line.replace "\t" "^I" else line
      let body := if o.has 'E' && line.endsWith "\n" then
          String.ofList (body.toList.dropLast) ++ "$\n" else body
      number ++ body ++ catLines o (if counts then n + 1 else n) isBlank lines

/-- Prints files one after the other. -/
def cat : Tool := fun c =>
  let table : OptionTable := { plain := "nbsuvETAet", long := [
    ("number", 'n'), ("number-nonblank", 'b'), ("squeeze-blank", 's'), ("show-ends", 'E'),
    ("show-tabs", 'T'), ("show-nonprinting", 'v'), ("show-all", 'A')] }
  c.withOptions table 1 fun o =>
    let o := { o with given := o.given ++ o.given.flatMap fun
      | ('A', _) => [('v', ""), ('E', ""), ('T', "")]
      | ('e', _) => [('v', ""), ('E', "")]
      | ('t', _) => [('v', ""), ('T', "")]
      | _ => [] }
    textTool c o.operands (fun texts =>
      let text := String.join texts
      if o.given.any (·.1 != 'u') then catLines o 1 false (wholeLines text) else text)
      plainComplaint 1

/-- Prints lines from the last to the first. -/
def tac : Tool := fun c =>
  c.withOptions { plain := "" } 1 fun o =>
    textTool c o.operands
      (fun texts => String.join (texts.map fun text => String.join (wholeLines text).reverse))
      (fun name e =>
        if e = .isADirectory then s!"{name}: read error: {e.reason}"
        else s!"failed to open '{name}' for reading: {e.reason}") 1

/-- Prints each line backwards. -/
def rev : Tool := fun c =>
  c.withOptions { plain := "" } 1 fun o =>
    let turn (line : String) : String :=
      if line.endsWith "\n" then String.ofList (line.toList.dropLast.reverse ++ ['\n'])
      else String.ofList line.toList.reverse
    textTool c o.operands
      (fun texts => String.join (texts.map fun text => String.join ((wholeLines text).map turn)))
      (fun name e => s!"cannot open {name}: {e.reason}") 1

/-- Prints its input, and writes it to files. -/
def tee : Tool := fun c =>
  c.withOptions { plain := "aip", long := [("append", 'a')] } 1 fun o =>
    let (disk, err) := o.operands.foldl (fun (d, err) path =>
      let before := if o.has 'a' then (Process.readFile d path).toOption.getD "" else ""
      if path = "/dev/null" then (d, err)
      else match Process.writeFile d path (before ++ c.input) with
        | .ok d => (d, err)
        | .error e => (d, err ++ c.message s!"{path}: {e.reason}")) (c.disk, "")
    { disk := disk, out := c.input, err := err, appetite := .all
      status := if err.isEmpty then 0 else 1 }

/-! ### Parts of files -/

/-- What part of a stream is asked for. -/
inductive Extent where
  /-- So many lines or bytes from the start, or all but so many at the end. -/
  | first (n : Nat)
  | butLast (n : Nat)
  /-- So many at the end, or all from one on. -/
  | last (n : Nat)
  | fromOn (n : Nat)
  deriving DecidableEq, Repr

/-- The factor that the letters after a number mean. -/
def factor? (cs : List Char) : Option Nat :=
  match cs with
  | [] => some 1
  | ['b'] => some 512
  | ['k'] | ['K'] | ['K', 'i', 'B'] => some 1024
  | ['k', 'B'] | ['K', 'B'] => some 1000
  | ['M'] | ['M', 'i', 'B'] => some 1048576
  | ['M', 'B'] => some 1000000
  | ['G'] | ['G', 'i', 'B'] => some 1073741824
  | ['G', 'B'] => some 1000000000
  | _ => none

/-- A number with a factor after it. -/
def scaled? (cs : List Char) : Option Nat :=
  let digits := cs.takeWhile Text.isDigit
  if digits.isEmpty then none
  else (factor? (cs.drop digits.length)).map fun f => Text.digitsValue digits * f

/-- The part that the argument of an option of `head` or `tail` means. -/
def extent? (isHead : Bool) (text : String) : Option Extent :=
  match text.toList, isHead with
  | '-' :: cs, true => (scaled? cs).map .butLast
  | '+' :: cs, true | cs, true => (scaled? cs).map .first
  | '+' :: cs, false => (scaled? cs).map .fromOn
  | '-' :: cs, false | cs, false => (scaled? cs).map .last

/-- The part of a list that is asked for. -/
def Extent.of {α : Type} (e : Extent) (xs : List α) : List α :=
  match e with
  | .first n => xs.take n
  | .butLast n => xs.take (xs.length - n)
  | .last n => xs.drop (xs.length - n)
  | .fromOn n => xs.drop (n - 1)

/-- The part of a text that is asked for. -/
def Extent.ofText (e : Extent) (bytes : Bool) (text : String) : String :=
  if bytes then String.ofList (e.of text.toList) else String.join (e.of (wholeLines text))

/-- Arguments in the form of an option with a number alone, brought into the usual one. -/
def withoutOldForm (isHead : Bool) (args : List String) : List String :=
  match args with
  | first :: rest =>
    let (mark, cs) := match first.toList with
      | '-' :: cs => ("", cs)
      | '+' :: cs => if isHead then ("", []) else ("+", cs)
      | _ => ("", [])
    let digits := cs.takeWhile Text.isDigit
    let after := cs.drop digits.length
    if digits.isEmpty then args
    else match after with
      | [] | ['l'] => "-n" :: (mark ++ String.ofList digits) :: rest
      | ['c'] => "-c" :: (mark ++ String.ofList digits) :: rest
      | _ => args
  | [] => []

/-- The line above a file where there are several. -/
def sourceTitle (first : Bool) (name : String) : String :=
  let name := if name = "-" then "standard input" else name
  (if first then "" else "\n") ++ s!"==> {name} <==\n"

/-- Prints a part of each file. -/
def partTool (isHead : Bool) : Tool := fun c =>
  let table : OptionTable := { plain := "qvfF", valued := "nc", long := [
    ("lines", 'n'), ("bytes", 'c'), ("quiet", 'q'), ("silent", 'q'), ("verbose", 'v'),
    ("follow", 'f')] }
  let old := withoutOldForm isHead c.args
  let misplaced := if isHead || old == c.args then none
    else (c.args.headD "").toList.find? Text.isDigit
  let c := { c with args := old }
  c.withOptions table 1 fun o =>
    let bytes := o.last? "nc" == some 'c'
    let asked := ((o.last? "nc").bind o.value?).getD "10"
    match if o.operands.length < 2 then none else misplaced, extent? isHead asked with
    | some digit, _ => c.fails 1 s!"option used in invalid context -- {digit}"
    | none, none =>
      let what := if bytes then "bytes" else "lines"
      c.fails 1 s!"invalid number of {what}: '{asked}'"
    | none, some e =>
      let wanted := match e with
        | .first n => n
        | _ => 0
      let opened := c.sources o.operands wanted
      let titled := o.last? "qv" == some 'v' || (opened.length > 1 && o.last? "qv" != some 'q')
      let (out, err, _) := opened.foldl (fun (out, err, isFirst) s =>
        match s.text with
        | .ok text =>
          (out ++ (if titled then sourceTitle isFirst s.name else "") ++ e.ofText bytes text,
            err, false)
        | .error f =>
          let title := if titled && f = .isADirectory then sourceTitle isFirst s.name else ""
          (out ++ title, err ++ c.message (readingComplaint s.name f), isFirst && title.isEmpty))
        ("", "", true)
      let reads := readsInput o.operands
      let used := e.ofText bytes c.input
      let enough : Bool := match e with
        | .first n =>
          if bytes then decide (n ≤ c.input.length) else decide (n ≤ c.input.toList.count '\n')
        | _ => false
      { disk := c.disk, out := out, err := err, status := if err.isEmpty then 0 else 1
        appetite := if !reads then .none
          else match e with
            | .first _ => if enough then .satisfied else .more
            | _ => .all
        rest := if reads && isHead && c.isFile then
            String.ofList (c.input.toList.drop used.length) else ""
        delay := if o.has 'f' || o.has 'F' then 1000000000000000 else 0 }

/-- Prints the start of files. -/
def head : Tool := partTool true

/-- Prints the end of files. -/
def tail : Tool := partTool false

/-! ### Lines in other forms -/

/-- The number of a line in a style of `nl`. -/
def lineNumber (format : String) (width n : Nat) : String :=
  match format with
  | "ln" => padRight width (toString n)
  | "rz" => padLeft width '0' (toString n)
  | _ => padLeft width ' ' (toString n)

/-- Numbers lines. -/
def nl : Tool := fun c =>
  c.withOptions { plain := "p", valued := "bwsnvihfld" } 1 fun o =>
    let style := (o.value? 'b').getD "t"
    let natOf (letter : Char) (default : Nat) : Nat :=
      ((o.value? letter).bind fun s => Text.digits? s.toList).getD default
    let width := natOf 'w' 6
    let separator := (o.value? 's').getD "\t"
    let step := natOf 'i' 1
    let number (lines : List String) : String :=
      (lines.foldl (fun (out, n) line =>
        if style = "a" || (style = "t" && line != "\n") then
          (out ++ lineNumber ((o.value? 'n').getD "rn") width n ++ separator ++ line, n + step)
        else (out ++ String.ofList (List.replicate (width + separator.length) ' ') ++ line, n))
        ("", natOf 'v' 1)).1
    textTool c o.operands (fun texts => number (wholeLines (String.join texts)).toArray.toList)
      plainComplaint 1

/-- Parts a line into pieces of a width, at blanks if they are wanted there.  The fuel bounds
the number of pieces. -/
def foldLine (width : Nat) (atBlanks : Bool) : Nat → List Char → List (List Char)
  | 0, cs => [cs]
  | fuel + 1, cs =>
    if cs.length ≤ width then [cs]
    else
      let piece := cs.take width
      let kept := piece.reverse.dropWhile (· != ' ')
      let piece := if atBlanks && !kept.isEmpty then kept.reverse else piece
      piece :: foldLine width atBlanks fuel (cs.drop piece.length)

/-- Breaks lines that are too wide. -/
def fold : Tool := fun c =>
  let args := c.args.map fun arg =>
    match arg.toList with
    | '-' :: d :: ds => if (d :: ds).all Text.isDigit then "-w" ++ String.ofList (d :: ds) else arg
    | _ => arg
  { c with args := args }.withOptions { plain := "sb", valued := "w" } 1 fun o =>
    let asked := (o.value? 'w').getD "80"
    match Text.digits? asked.toList with
    | none | some 0 => c.fails 1 s!"invalid number of columns: '{asked}'"
    | some width =>
      let parted (line : String) : String :=
        let cs := line.toList
        let isEnded := cs.getLast? == some '\n'
        let body := if isEnded then cs.dropLast else cs
        let pieces := foldLine width (o.has 's') (body.length + 1) body
        "\n".intercalate (pieces.map String.ofList) ++ if isEnded then "\n" else ""
      textTool c o.operands
        (fun texts => String.join ((texts.flatMap wholeLines).map parted)) plainComplaint 1

/-! ### Counting -/

/-- What a text counts as: lines, words, bytes, and the longest line. -/
structure Tallied where
  lines : Nat
  words : Nat
  bytes : Nat
  longest : Nat

/-- The number of columns that a line takes. -/
def columns (line : List Char) : Nat :=
  line.foldl (fun n ch =>
    if ch == '\t' then (n / 8 + 1) * 8 else if ' ' ≤ ch && ch ≤ '~' then n + 1 else n) 0

/-- What there is in a text. -/
def Tallied.ofText (text : String) : Tallied where
  lines := text.toList.count '\n'
  words := (text.toList.foldl (fun (n, inWord) ch =>
    if Text.CharSet.space.contains ch then (n, false)
    else if inWord then (n, true) else (n + 1, true)) (0, false)).1
  bytes := text.length
  longest := ((lineChars text).map columns).foldl max 0

/-- Counts lines, words and bytes. -/
def wc : Tool := fun c =>
  let table : OptionTable := { plain := "lwcmL", long := [
    ("lines", 'l'), ("words", 'w'), ("bytes", 'c'), ("chars", 'm'), ("max-line-length", 'L')] }
  c.withOptions table 1 fun o =>
    let wanted := if o.given.isEmpty then ['l', 'w', 'c']
      else ['l', 'w', 'm', 'c', 'L'].filter o.has
    let opened := c.sources o.operands 0
    let count (t : Tallied) : Char → Nat
      | 'l' => t.lines
      | 'w' => t.words
      | 'L' => t.longest
      | _ => t.bytes
    let tallies := opened.map fun s => (s.name, s.text.map Tallied.ofText)
    let size := total (tallies.map fun (_, t) => (t.toOption.map (·.bytes)).getD 0)
    let usesInput := readsInput o.operands
    let width := if wanted.length = 1 && opened.length = 1 then 1
      else if (usesInput && !c.isFile)
        || opened.any (fun s => s.text matches .error .isADirectory) then 7
      else (toString size).length
    let row (name : String) (counts : List Nat) : String :=
      " ".intercalate (counts.map fun n => padLeft width ' ' (toString n))
        ++ (if o.operands.isEmpty then "" else " " ++ name) ++ "\n"
    let rows := tallies.map fun (name, t) =>
      match t with
      | .ok t => row name (wanted.map (count t))
      | .error .isADirectory => row name (wanted.map fun _ => 0)
      | .error _ => ""
    let sums := wanted.map fun letter =>
      let numbers := tallies.map fun (_, t) => (t.toOption.map fun t => count t letter).getD 0
      if letter == 'L' then numbers.foldl max 0 else total numbers
    let totals := if opened.length ≤ 1 then "" else row "total" sums
    let (_, err) := goodSources c opened plainComplaint
    { disk := c.disk, out := String.join rows ++ totals, err := err
      status := if err.isEmpty then 0 else 1, appetite := appetiteFor o.operands }

end MutationTesting.Shell
