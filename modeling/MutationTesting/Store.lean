import MutationTesting.Glob.Search
import MutationTesting.Record

/-!
# Stored records

Catalogs, results and reports are kept as JSON files.  A result of a batch is stored under
the id of its mutation, and all results are found again by a glob pattern.
-/

namespace MutationTesting

/-- Why a stored record cannot be had or kept. -/
inductive StoreError where
  | inaccessible (path : String) (cause : FileError)
  | malformed (path : String)
  | unknownMutation (id : String)
  deriving DecidableEq, Repr

def StoreError.message : StoreError → String
  | .inaccessible path cause => s!"failed to access {path}: {cause.message}"
  | .malformed path => s!"invalid JSON in {path}: not a record of the expected form"
  | .unknownMutation id => s!"mutation {id} not found"

namespace Store

/-- Reads the record in a file. -/
def load {α : Type} (record? : Json → Option α) (path : String) :
    Procedure (Except StoreError α) := do
  match ← Procedure.readText path with
  | .error e => return .error (.inaccessible path e)
  | .ok text =>
    match Record.parse? record? text with
    | some record => return .ok record
    | none => return .error (.malformed path)

/-- Makes the directory that a file is going to be in. -/
def makeParent (path : String) : Procedure (Except FileError Unit) := do
  match Path.parent? path with
  | none | some "" => return .ok ()
  | some parent => Procedure.makeDirectories parent

/-- Writes a record to a file, in a directory that is made if it is not there. -/
def save (path : String) (json : Json) : Procedure (Except StoreError Unit) := do
  match ← makeParent path with
  | .error e => return .error (.inaccessible path e)
  | .ok () =>
    match ← Procedure.write path (json.pretty ++ "\n") with
    | .error e => return .error (.inaccessible path e)
    | .ok () => return .ok ()

def loadCatalog (path : String) : Procedure (Except StoreError (List Mutation)) :=
  load (Record.list? Record.mutation?) path

def saveCatalog (path : String) (mutations : List Mutation) : Procedure (Except StoreError Unit) :=
  save path (Record.ofCatalog mutations)

def loadResult (path : String) : Procedure (Except StoreError TestResult) :=
  load Record.result? path

def saveResult (path : String) (result : TestResult) : Procedure (Except StoreError Unit) :=
  save path (Record.ofResult result)

def saveReport (path : String) (report : Report) : Procedure (Except StoreError Unit) :=
  save path (Record.ofReport report)

/-- The first mutation with an id. -/
def findMutation (catalog : List Mutation) (id : String) : Except StoreError Mutation :=
  match catalog.find? (·.id == id) with
  | some m => .ok m
  | none => .error (.unknownMutation id)

/-- Whether a character of an id stands for itself in a file name. -/
def isPlain (c : Char) : Bool :=
  ('a' ≤ c && c ≤ 'z') || ('A' ≤ c && c ≤ 'Z') || ('0' ≤ c && c ≤ '9')
    || c == '-' || c == '_'

/-- Where the result of a mutation is stored; what is not plain in its id becomes `_`. -/
def resultPath (directory id : String) : String :=
  Path.join directory
    (String.ofList (id.toList.map fun c => if isPlain c then c else '_') ++ ".json")

end Store

/-! ### Collecting results -/

/-- Why no results were collected. -/
inductive CollectError where
  | badPattern (cause : Glob.PatternError)
  | noMatches (pattern : String)
  deriving DecidableEq, Repr

def CollectError.message : CollectError → String
  | .badPattern cause => s!"invalid results pattern: {cause.message}"
  | .noMatches pattern => s!"no result files found matching pattern: {pattern}"

namespace Store

/-- The results in those of some files that hold one. -/
def loadResults : List String → Procedure (List TestResult)
  | [] => pure []
  | path :: paths => do
    let result ← loadResult path
    return result.toOption.toList ++ (← loadResults paths)

/-- The results in the files that match a pattern. -/
def collectResults (pattern : String) : Procedure (Except CollectError (List TestResult)) := do
  match Glob.Query.parse pattern with
  | .error e => return .error (.badPattern e)
  | .ok query =>
    match ← Glob.search query with
    | [] => return .error (.noMatches pattern)
    | paths => return .ok (← loadResults paths)

end Store

end MutationTesting
