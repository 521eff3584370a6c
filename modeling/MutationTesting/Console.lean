import MutationTesting.Decimal.Fixed
import MutationTesting.Duration
import MutationTesting.Report
import MutationTesting.Text.Lines

/-!
# Messages on the console

What a run says to its user: single messages, the progress of a batch, and summaries of
catalogs, batches and reports.  An `Output` is what goes to the standard output and to the
standard error.
-/

namespace MutationTesting

/-- Text for the two streams of a program. -/
structure Output where
  out : String := ""
  err : String := ""
  deriving DecidableEq, Repr

namespace Output

def append (a b : Output) : Output := ⟨a.out ++ b.out, a.err ++ b.err⟩

instance : Append Output := ⟨append⟩

/-- A line for the standard output. -/
def line (text : String) : Output := ⟨text ++ "\n", ""⟩

/-- A line for the standard error. -/
def errorLine (text : String) : Output := ⟨"", text ++ "\n"⟩

def concat (outputs : List Output) : Output := outputs.foldl append {}

end Output

namespace Console

/-! ### Styles -/

/-- The numbers of the terminal codes that a style switches on, colour first. -/
structure Style where
  codes : List Nat

namespace Style

def red : Style := ⟨[31]⟩
def green : Style := ⟨[32]⟩
def yellow : Style := ⟨[33]⟩
def magenta : Style := ⟨[35]⟩
def dim : Style := ⟨[2]⟩
def plainBold : Style := ⟨[1]⟩
def bold (s : Style) : Style := ⟨s.codes ++ [1]⟩

/-- Puts a text between the codes of a style and a reset, if there is colour at all. -/
def paint (color : Bool) (s : Style) (text : String) : String :=
  if color then
    String.join (s.codes.map fun code => s!"\x1b[{code}m") ++ text ++ "\x1b[0m"
  else text

end Style

/-- Each status has a style of its own. -/
def statusStyle : Status → Style
  | .killed => .green
  | .survived => Style.red.bold
  | .timeout => .yellow
  | .error => .magenta

variable (color : Bool)

/-! ### Messages -/

def error (text : String) : Output :=
  .errorLine (Style.red.bold.paint color "✗" ++ " " ++ text)

def success (text : String) : Output :=
  .errorLine (Style.green.bold.paint color "✓" ++ " " ++ text)

def warning (text : String) : Output :=
  .errorLine (Style.yellow.bold.paint color "WARNING:" ++ " " ++ text)

/-- The result of one mutation of a batch. -/
def progress (done total : Nat) (id : String) (status : Status) : Output :=
  .line <| Style.dim.paint color s!"[{done}/{total}]" ++ s!" {id}: "
    ++ (statusStyle status).paint color status.name

/-- The number of mutations of a file, and of those that matter most. -/
def catalogSummary (file : String) (mutations : List Mutation) : Output :=
  let high := mutations.countP fun m => m.priority == .high
  success color s!"{file}: {mutations.length} mutations ({high} high priority)"

/-- A line of a difference. -/
def diffLine (line : String) : Output :=
  let style := if line.toList.head? == some '-' then Style.red else Style.green
  .errorLine ("    " ++ style.paint color line)

/-- A result, with the difference when the mutant survived. -/
def result (r : TestResult) : Output :=
  let status := (statusStyle r.status).paint color r.status.name.toUpper
  let head := Output.errorLine <| status ++ s!" {r.mutationId} {r.file}:{r.line} "
    ++ Style.dim.paint color r.description
  if r.status = .survived then
    head ++ .concat ((Text.lines r.diff).map (diffLine color))
  else head

/-! ### Summaries -/

def ruler : String := String.ofList (List.replicate 60 '=')

/-- A share in percent with one decimal place. -/
def share (part whole : Nat) : String := Decimal.fixed 1 (percent part whole) ++ "%"

/-- The seconds of a duration. -/
def seconds (d : Duration) : Float := Float.ofNat d.secs + Float.ofNat d.nanos / 1e9

/-- The counts and the score of a batch, and how long it took. -/
def batchSummary (t : Tally) (duration : Duration) : Output :=
  let score :=
    if t.testable = 0 then []
    else
      [s!"\nMutation Score: {share t.killed t.testable} ({t.killed}/{t.testable} killed, "
        ++ s!"{t.timeouts} timeouts excluded)"]
  .concat <| List.map .line <|
    ["\n" ++ ruler,
      "Mutation Testing Complete",
      ruler,
      s!"Total:    {t.total}",
      s!"Killed:   {t.killed} ({share t.killed t.total})",
      s!"Survived: {t.survived} ({share t.survived t.total})",
      s!"Timeout:  {t.timeouts}",
      s!"Errors:   {t.errors}"]
    ++ score
    ++ [s!"Duration: {Decimal.fixed 1 (seconds duration)}s", ruler]

def heading (text : String) : String := Style.plainBold.paint color s!"=== {text} ==="

/-- The survivors of a report, one by one and by category; nothing if there are none. -/
def survivors (r : Report) : List String :=
  if r.survivors.isEmpty then []
  else
    ["\n" ++ heading color "Surviving Mutants"]
    ++ r.survivors.map (fun s =>
      "- " ++ Style.dim.paint color s!"{s.file}:{s.line}"
        ++ s!" - {s.description} ({s.mutationId})")
    ++ ["\n" ++ heading color "Survivors by Type"]
    ++ r.survivorsByType.map fun (kind, count) => s!"- {kind}: {count}"

/-- The word of a grade with its style. -/
def gradeMark : Grade → String × Style
  | .excellent | .good => ("✓", Style.green.bold)
  | .fair => ("!", Style.yellow.bold)
  | .poor => ("✗", Style.red.bold)

/-- The counts, the score, the survivors and the grade of a report. -/
def reportSummary (r : Report) : Output :=
  let t := r.tally
  let (mark, style) := gradeMark r.grade
  .concat <| List.map .errorLine <|
    ["\n" ++ heading color "Mutation Testing Summary",
      s!"Total Mutations: {t.total}",
      s!"Killed: {t.killed} ({share t.killed t.total})",
      s!"Survived: {t.survived} ({share t.survived t.total})",
      s!"Timeouts: {t.timeouts}",
      s!"Errors: {t.errors}",
      s!"\nMutation Score: {Decimal.fixed 1 r.score}%",
      s!"Total Duration: {Decimal.fixed 2 (r.totalDurationMs / 1000)} seconds"]
    ++ survivors color r
    ++ ["\n" ++ heading color "Quality Assessment",
      style.paint color mark ++ " " ++ style.paint color r.grade.name ++ ": " ++ r.grade.message]

end Console

end MutationTesting
