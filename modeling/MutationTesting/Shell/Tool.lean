import MutationTesting.Shell.Process
import MutationTesting.Shell.Surroundings

/-!
# Tools

Programs that commands and scripts use.  A `Tool` gets its arguments, its standard input and
the disk, and gives what it prints, its status, the disk afterwards, and how long it takes.
`Options.read` reads arguments as most tools do.
-/

namespace MutationTesting.Shell

/-- A tool as it is called. -/
structure ToolCall where
  /-- What the tool was called as. -/
  name : String
  args : List String
  /-- The whole of the standard input. -/
  input : String
  /-- Whether the standard input is a file, in which a tool leaves what it has not used. -/
  isFile : Bool
  disk : Disk
  environment : List (String × String)

/-- How much of its standard input a tool wants. -/
inductive Appetite where
  /-- Nothing. -/
  | none
  /-- All there is. -/
  | all
  /-- More than it was given, but not all. -/
  | more
  /-- What it was given is enough. -/
  | satisfied
  deriving DecidableEq, Repr

/-- What came of a run of a tool. -/
structure ToolResult where
  disk : Disk
  status : Nat := 0
  out : String := ""
  err : String := ""
  /-- The nanoseconds that it takes. -/
  delay : Nat := 0
  appetite : Appetite := .none
  /-- What is left of the standard input. -/
  rest : String := ""

/-- A program that needs nothing but its call. -/
abbrev Tool := ToolCall → ToolResult

namespace ToolCall

/-- A run that prints a text. -/
def prints (c : ToolCall) (text : String) : ToolResult := { disk := c.disk, out := text }

/-- A run that only has a status. -/
def ends (c : ToolCall) (status : Nat) : ToolResult := { disk := c.disk, status := status }

/-- A message of a tool. -/
def message (c : ToolCall) (text : String) : String := s!"{c.name}: {text}\n"

/-- A run that fails with a message. -/
def fails (c : ToolCall) (status : Nat) (text : String) : ToolResult :=
  { disk := c.disk, status := status, err := c.message text }

/-- The hint after a complaint about arguments. -/
def hint (c : ToolCall) : String := s!"\nTry '{c.name} --help' for more information."

/-- A run that fails because of its arguments. -/
def misused (c : ToolCall) (status : Nat) (text : String) : ToolResult :=
  c.fails status (text ++ c.hint)

end ToolCall

/-! ### Options -/

/-- The options of a call, each with its argument, and the other arguments. -/
structure Options where
  given : List (Char × String)
  operands : List String

/-- What options a tool knows. -/
structure OptionTable where
  /-- The letters of those without an argument. -/
  plain : String
  /-- The letters of those with an argument. -/
  valued : String := ""
  /-- Long names for letters. -/
  long : List (String × Char) := []
  /-- Whether options end where other arguments begin. -/
  strict : Bool := false

namespace Options

def has (o : Options) (c : Char) : Bool := o.given.any (·.1 == c)

/-- The argument of an option that was given last. -/
def value? (o : Options) (c : Char) : Option String :=
  (o.given.reverse.find? (·.1 == c)).map (·.2)

def values (o : Options) (c : Char) : List String :=
  (o.given.filter (·.1 == c)).map (·.2)

/-- The one of two options that was given last. -/
def last? (o : Options) (letters : String) : Option Char :=
  (o.given.reverse.find? fun (c, _) => letters.toList.contains c).map (·.1)

def add (o : Options) (c : Char) (value : String) : Options :=
  { o with given := (c, value) :: o.given }

/-- Reads the letters of an argument.  Gives the options, and the letter that still needs an
argument if there is one. -/
def readLetters (t : OptionTable) (o : Options) : List Char → Except String (Options × Option Char)
  | [] => .ok (o, none)
  | c :: cs =>
    if t.plain.toList.contains c then readLetters t (o.add c "") cs
    else if t.valued.toList.contains c then
      if cs.isEmpty then .ok (o, some c) else .ok (o.add c (String.ofList cs), none)
    else .error s!"invalid option -- '{c}'"

/-- Reads a long option. -/
def readLong (t : OptionTable) (o : Options) (text : List Char) :
    Except String (Options × Option Char) :=
  let name := String.ofList (text.takeWhile (· != '='))
  let value := text.drop name.length
  match t.long.filter fun (long, _) => long.startsWith name with
  | (long, c) :: more =>
    if !more.isEmpty && long != name && more.any fun (_, d) => c != d then
      .error s!"option '--{name}' is ambiguous"
    else if t.valued.toList.contains c then
      if value.isEmpty then .ok (o, some c) else .ok (o.add c (String.ofList (value.drop 1)), none)
    else if value.isEmpty then .ok (o.add c "", none)
    else .error s!"option '--{long}' doesn't allow an argument"
  | [] => .error s!"unrecognized option '--{name}'"

/-- Reads arguments, with the options in reverse order. -/
def readArgs (t : OptionTable) (o : Options) : Option Char → List String → Except String Options
  | none, [] => .ok o
  | some c, [] => .error s!"option requires an argument -- '{c}'"
  | some c, arg :: args => readArgs t (o.add c arg) none args
  | none, arg :: args =>
    match arg.toList with
    | ['-', '-'] => .ok { o with operands := o.operands ++ args }
    | '-' :: '-' :: text => do
      let (o, pending) ← readLong t o text
      readArgs t o pending args
    | '-' :: c :: cs => do
      let (o, pending) ← readLetters t o (c :: cs)
      readArgs t o pending args
    | _ =>
      if t.strict then .ok { o with operands := o.operands ++ arg :: args }
      else readArgs t { o with operands := o.operands ++ [arg] } none args

/-- Reads the arguments of a call. -/
def read (t : OptionTable) (args : List String) : Except String Options := do
  let o ← readArgs t ⟨[], []⟩ none args
  return { o with given := o.given.reverse }

end Options

/-- Runs a tool on its options. -/
def ToolCall.withOptions (c : ToolCall) (t : OptionTable) (status : Nat)
    (run : Options → ToolResult) : ToolResult :=
  match Options.read t c.args with
  | .ok o => run o
  | .error text => c.misused status text

/-! ### Input -/

/-- Something that a tool reads, by the name that it was given as. -/
structure Opened where
  name : String
  text : Except FileError String

/-- What is read from paths; `-` is the standard input, which is also read without any path.
Of a device without an end only so much is read as is wanted. -/
def ToolCall.sources (c : ToolCall) (paths : List String) (wanted : Nat) : List Opened :=
  let paths := if paths.isEmpty then ["-"] else paths
  let read (path : String) : Except FileError String :=
    if path = "/dev/null" then .ok ""
    else if path = "/dev/zero" then .ok (String.ofList (List.replicate wanted '\x00'))
    else if path = "/dev/stdin" then .ok c.input
    else match Process.readFile c.disk path with
      | .error e =>
        if fileKind? c.disk path = some .directory then .error .isADirectory else .error e
      | result => result
  (paths.foldl (fun (sources, isFresh) path =>
    if path = "-" then (⟨path, .ok (if isFresh then c.input else "")⟩ :: sources, false)
    else (⟨path, read path⟩ :: sources, isFresh)) (([] : List Opened), true)).1.reverse

/-- Whether paths mean that the standard input is read. -/
def readsInput (paths : List String) : Bool :=
  paths.isEmpty || paths.contains "-" || paths.contains "/dev/stdin"

def appetiteFor (paths : List String) : Appetite := if readsInput paths then .all else .none

/-! ### Lines -/

/-- The texts between newlines; one more than there are newlines. -/
def splitAtNewlines (text : String) : List (List Char) :=
  text.toList.foldr (fun c parts =>
    if c == '\n' then [] :: parts
    else match parts with
      | [] => [[c]]
      | part :: parts => (c :: part) :: parts) [[]]

/-- The lines of a text, without their ends. -/
def lineChars (text : String) : List (List Char) :=
  let parts := splitAtNewlines text
  if parts.getLast? = some [] then parts.dropLast else parts

/-- The lines of a text, without their ends. -/
def linesOf (text : String) : List String := (lineChars text).map String.ofList

/-- Lines with a newline after each. -/
def unlines (lines : List String) : String := String.join (lines.map (· ++ "\n"))

/-- The lines of a text with their ends; the last one may have none. -/
def wholeLines (text : String) : List String :=
  let parts := splitAtNewlines text
  let complete := parts.dropLast.map fun line => String.ofList (line ++ ['\n'])
  match parts.getLast? with
  | some [] | none => complete
  | some last => complete ++ [String.ofList last]

/-- Puts characters before a text up to a width. -/
def padLeft (width : Nat) (c : Char) (text : String) : String :=
  String.ofList (List.replicate (width - text.length) c) ++ text

/-- Puts blanks after a text up to a width. -/
def padRight (width : Nat) (text : String) : String :=
  text ++ String.ofList (List.replicate (width - text.length) ' ')

/-- The parts of a text between characters that part it. -/
def splitAt (isMark : Char → Bool) (cs : List Char) : List (List Char) :=
  cs.foldr (fun c parts =>
    if isMark c then [] :: parts
    else match parts with
      | [] => [[c]]
      | part :: parts => (c :: part) :: parts) [[]]

/-- The sum of numbers. -/
def total (numbers : List Nat) : Nat := numbers.foldl (fun n m => n + m) 0

end MutationTesting.Shell
