import MutationTesting.Json.Number
import MutationTesting.Json.Printer
import MutationTesting.Report

/-!
# Records as JSON

Mutations, results and reports are kept in files as JSON.  A record is an object with
known fields, each at most once, among any others; an array with the fields in their order
is read as well.
-/

namespace MutationTesting.Record

/-! ### Reading -/

/-- The values of the named fields of a record, as far as they are there. -/
def fields? (names : List String) : Json → Option (List (Option Json))
  | .object pairs =>
    if names.any fun name => 1 < pairs.countP (·.1 == name) then none
    else some (names.map (Json.field? (.object pairs)))
  | .array items =>
    if names.length < items.length then none
    else some (items.map some ++ List.replicate (names.length - items.length) none)
  | _ => none

def text? : Json → Option String
  | .string text => some text
  | _ => none

/-- A name, or an object whose only field is that name with the value null. -/
def name? : Json → Option String
  | .string name => some name
  | .object [(name, .null)] => some name
  | _ => none

def list? {α : Type} (item? : Json → Option α) : Json → Option (List α)
  | .array items => items.mapM item?
  | _ => none

/-- The names of the fields of a mutation. -/
def mutationFields : List String :=
  ["id", "file", "line", "column", "type", "original", "mutated", "description", "priority"]

def mutation? (json : Json) : Option Mutation := do
  let [some id, some file, some line, some column, some kind, some fragment, some mutated,
    some description, some priority] ← fields? mutationFields json | none
  return {
    id := ← text? id
    file := ← text? file
    line := ← Json.natural? line
    column := ← Json.natural? column
    kind := ← (name? kind).bind MutationKind.ofName?
    fragment := ← text? fragment
    mutated := ← text? mutated
    description := ← text? description
    priority := ← (name? priority).bind Priority.ofName? }

/-- The names of the fields of a result.  The last two may be missing. -/
def resultFields : List String :=
  ["mutation_id", "status", "duration_ms", "test_output", "description", "file", "line", "type",
    "diff"]

/-- A kind, or null for none. -/
def kind? : Option Json → Option (Option MutationKind)
  | none | some .null => some none
  | some json => ((name? json).bind MutationKind.ofName?).map some

def result? (json : Json) : Option TestResult := do
  let [some id, some status, some duration, some output, some description, some file,
    some line, kind, diff] ← fields? resultFields json | none
  return {
    mutationId := ← text? id
    status := ← (name? status).bind Status.ofName?
    durationMs := ← Json.real? duration
    testOutput := ← text? output
    description := ← text? description
    file := ← text? file
    line := ← Json.natural? line
    kind := ← kind? kind
    diff := ← diff.elim (some "") text? }

/-- The names of the fields of a report. -/
def reportFields : List String :=
  ["total_mutations", "killed", "survived", "timeouts", "errors", "mutation_score",
    "total_duration_ms", "results", "survivors_by_file", "survivors_by_type", "survivors"]

/-- Puts a number under a name, in a list in the order of names. -/
def putNumber (name : String) (n : Nat) : List (String × Nat) → List (String × Nat)
  | [] => [(name, n)]
  | (other, m) :: rest =>
    match Path.compareNames name other with
    | .lt => (name, n) :: (other, m) :: rest
    | .eq => (other, n) :: rest
    | .gt => (other, m) :: putNumber name n rest

/-- Numbers under names; of a repeated name the last one counts. -/
def numbers? : Json → Option (List (String × Nat))
  | .object pairs => pairs.foldlM (fun table (name, json) => do
      return putNumber name (← Json.natural? json) table) []
  | _ => none

def report? (json : Json) : Option Report := do
  let [some total, some killed, some survived, some timeouts, some errors, some score,
    some duration, some results, some byFile, some byType, some survivors]
      ← fields? reportFields json | none
  return {
    tally := {
      total := ← Json.natural? total
      killed := ← Json.natural? killed
      survived := ← Json.natural? survived
      timeouts := ← Json.natural? timeouts
      errors := ← Json.natural? errors }
    score := ← Json.real? score
    totalDurationMs := ← Json.real? duration
    results := ← list? result? results
    survivorsByFile := ← numbers? byFile
    survivorsByType := ← numbers? byType
    survivors := ← list? result? survivors }

/-- Reads a text as a record. -/
def parse? {α : Type} (record? : Json → Option α) (text : String) : Option α :=
  (Json.parse? text).bind record?

/-! ### Writing -/

def ofMutation (m : Mutation) : Json :=
  .object [
    ("id", .string m.id), ("file", .string m.file), ("line", .ofNat m.line),
    ("column", .ofNat m.column), ("type", .string m.kind.name),
    ("original", .string m.fragment), ("mutated", .string m.mutated),
    ("description", .string m.description), ("priority", .string m.priority.name)]

/-- A missing kind and an empty difference are left out. -/
def ofResult (r : TestResult) : Json :=
  .object ([
    ("mutation_id", .string r.mutationId), ("status", .string r.status.name),
    ("duration_ms", Json.ofFloat r.durationMs), ("test_output", .string r.testOutput),
    ("description", .string r.description), ("file", .string r.file), ("line", .ofNat r.line)]
    ++ (r.kind.map fun kind => ("type", .string kind.name)).toList
    ++ if r.diff.isEmpty then [] else [("diff", .string r.diff)])

def ofNumbers (table : List (String × Nat)) : Json :=
  .object (table.map fun (name, n) => (name, .ofNat n))

def ofReport (r : Report) : Json :=
  .object [
    ("total_mutations", .ofNat r.tally.total), ("killed", .ofNat r.tally.killed),
    ("survived", .ofNat r.tally.survived), ("timeouts", .ofNat r.tally.timeouts),
    ("errors", .ofNat r.tally.errors), ("mutation_score", Json.ofFloat r.score),
    ("total_duration_ms", Json.ofFloat r.totalDurationMs),
    ("results", .array (r.results.map ofResult)),
    ("survivors_by_file", ofNumbers r.survivorsByFile),
    ("survivors_by_type", ofNumbers r.survivorsByType),
    ("survivors", .array (r.survivors.map ofResult))]

def ofCatalog (mutations : List Mutation) : Json := .array (mutations.map ofMutation)

end MutationTesting.Record
