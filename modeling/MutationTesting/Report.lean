import MutationTesting.Mutation
import MutationTesting.Path
import MutationTesting.Operator

/-!
# Reports

A `Tally` counts what came of mutations; a `Report` adds the mutation score and the
surviving mutants, in all, by file and by category.  The category of a result without a
kind is told from its description.
-/

namespace MutationTesting

/-- How many mutations came to what. -/
structure Tally where
  total : Nat
  killed : Nat
  survived : Nat
  timeouts : Nat
  errors : Nat
  deriving DecidableEq, Repr

namespace Tally

/-- The tally of so many mutations before the first one is counted. -/
def uncounted (total : Nat) : Tally where
  total := total
  killed := 0
  survived := 0
  timeouts := 0
  errors := 0

/-- Counts one mutation under what it came to. -/
def count (t : Tally) : Status → Tally
  | .killed => { t with killed := t.killed + 1 }
  | .survived => { t with survived := t.survived + 1 }
  | .timeout => { t with timeouts := t.timeouts + 1 }
  | .error => { t with errors := t.errors + 1 }

def ofStatuses (statuses : List Status) : Tally :=
  statuses.foldl count (uncounted statuses.length)

def ofResults (results : List TestResult) : Tally := ofStatuses (results.map (·.status))

/-- The mutants on which the tests came to an end. -/
def testable (t : Tally) : Nat := t.total - t.timeouts

/-- What is wrong with numbers that are those of no results: more timeouts than mutations. -/
def flaw? (t : Tally) : Option String :=
  if t.total < t.timeouts then some "attempt to subtract with overflow" else none

/-- The mutants that the tests judged. -/
def judged (t : Tally) : Nat := t.total - t.timeouts - t.errors

end Tally

/-- The share of `part` in `whole` in percent; of nothing it is 0. -/
def percent (part whole : Nat) : Float :=
  if whole = 0 then 0 else Float.ofNat part / Float.ofNat whole * 100

/-- The percentage of killed mutants among those on which the tests came to an end. -/
def Tally.score (t : Tally) : Float := percent t.killed t.testable

/-! ### Categories -/

/-- The category of a result that has no kind. -/
def otherCategory : String := "other"

/-- Words in lower case by which a description tells a kind, the first match first. -/
def kindHints : List (List String × MutationKind) := [
  (["boundary"], .relationalOperator),
  (["else"], .elseRemoval),
  (["negate"], .conditionNegation),
  (["return value"], .returnValue),
  (["return", "statement"], .statementRemoval),
  (["negation", "unary"], .unaryOperator),
  (["off-by-one", "string to empty", "constant", "change 0 to 1", "change 1 to 0"], .constant),
  (["++", "--", "increment", "decrement"], .incDec),
  (["+=", "-=", "assignment"], .assignmentOperator),
  (["&&", "||", "logical", " and ", " or "], .logicalOperator),
  (["arithmetic", "+", "-", "*", "/", "%"], .arithmeticOperator),
  (["<", ">", "==", "!="], .relationalOperator)]

/-- The kind that a description tells of, if any.  The case of letters does not matter;
only ASCII letters have a lower case that occurs in a hint. -/
def inferKind? (description : String) : Option MutationKind :=
  let lower := description.toList.map Operator.asciiLower
  let hinted := kindHints.find? fun (hints, _) =>
    hints.any fun hint => Text.occursIn hint.toList lower
  hinted.map (·.2)

/-- The category under which a result is counted. -/
def TestResult.category (r : TestResult) : String :=
  ((r.kind.or (inferKind? r.description)).map (·.name)).getD otherCategory

/-! ### Aggregation -/

/-- Adds one to the number under a name, in a list in the order of names. -/
def increment (name : String) : List (String × Nat) → List (String × Nat)
  | [] => [(name, 1)]
  | (other, n) :: rest =>
    match Path.compareNames name other with
    | .lt => (name, 1) :: (other, n) :: rest
    | .eq => (other, n + 1) :: rest
    | .gt => (other, n) :: increment name rest

/-- Whether a result comes no later than another by its file and then by its line. -/
def TestResult.noLater (a b : TestResult) : Bool :=
  ((Path.compareNames a.file b.file).then (compare a.line b.line)).isLE

/-- The results of a batch with the numbers that sum them up. -/
structure Report where
  tally : Tally
  score : Float
  totalDurationMs : Float
  results : List TestResult
  survivorsByFile : List (String × Nat)
  survivorsByType : List (String × Nat)
  /-- By file and line. -/
  survivors : List TestResult
  deriving Repr

namespace Report

/-- The report on so many results before the first one is counted. -/
def uncounted (total : Nat) : Report where
  tally := ⟨total, 0, 0, 0, 0⟩
  score := 0
  totalDurationMs := 0
  results := []
  survivorsByFile := []
  survivorsByType := []
  survivors := []

/-- Counts one result, and keeps it if its mutant survived. -/
def count (report : Report) (r : TestResult) : Report :=
  let t := report.tally
  let report := { report with totalDurationMs := report.totalDurationMs + r.durationMs }
  match r.status with
  | .killed => { report with tally := { t with killed := t.killed + 1 } }
  | .survived => { report with
      tally := { t with survived := t.survived + 1 }
      survivorsByFile := increment r.file report.survivorsByFile
      survivorsByType := increment r.category report.survivorsByType
      survivors := report.survivors ++ [r] }
  | .timeout => { report with tally := { t with timeouts := t.timeouts + 1 } }
  | .error => { report with tally := { t with errors := t.errors + 1 } }

/-- The report with the score of what was counted, if any of it was judged. -/
def graded (report : Report) : Report :=
  let judged := report.tally.judged
  if 0 < judged then
    { report with score := Float.ofNat report.tally.killed / Float.ofNat judged * 100 }
  else report

end Report

/-- The report on a list of results. -/
def aggregate (results : List TestResult) : Report :=
  let report := (results.foldl Report.count (.uncounted results.length)).graded
  { report with
    survivors := report.survivors.mergeSort TestResult.noLater
    results := results }

/-! ### Grades -/

/-- How good a score is. -/
inductive Grade where
  | excellent | good | fair | poor
  deriving DecidableEq, Repr

namespace Grade

/-- A score is graded by the tens that it reaches. -/
def ofScore (score : Float) : Grade :=
  if 90 ≤ score then .excellent
  else if 80 ≤ score then .good
  else if 70 ≤ score then .fair
  else .poor

def name : Grade → String
  | .excellent => "EXCELLENT"
  | .good => "GOOD"
  | .fair => "FAIR"
  | .poor => "POOR"

def message : Grade → String
  | .excellent => "Very thorough test suite"
  | .good => "Solid test coverage with minor gaps"
  | .fair => "Tests cover main paths but miss edges"
  | .poor => "Significant test gaps, add more tests"

end Grade

def Report.grade (r : Report) : Grade := .ofScore r.score

end MutationTesting
