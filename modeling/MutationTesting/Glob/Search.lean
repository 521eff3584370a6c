import MutationTesting.Glob
import MutationTesting.Procedure
import MutationTesting.Text.Lines

/-!
# Searching for paths

`Glob.search` finds the paths that match a pattern, one name of the pattern after the
other, in the order of names within each directory.  Names without wildcards are followed
without reading a directory.
-/

namespace MutationTesting.Glob

/-- The texts between the slashes of a pattern, but none after a slash at its end. -/
def names (text : List Char) : List (List Char) :=
  let parts := (Path.segments text).map (·.1)
  if parts.getLast? == some [] then parts.dropLast else parts

/-- What to search for and where. -/
structure Query where
  /-- Where the search starts. -/
  scope : String
  /-- One pattern for each name of a path. -/
  patterns : List Pattern
  /-- Whether only directories are looked for. -/
  directoriesOnly : Bool
  deriving Repr

/-- Reads a pattern for paths. -/
def Query.parse (text : String) : Except PatternError Query := do
  let cs := text.toList
  let _ ← Pattern.parse cs
  let rooted := cs.head? == some '/'
  let rest := if rooted then cs.drop 1 else cs
  let patterns ← (names rest).mapM Pattern.parse
  return {
    scope := if rooted then "/" else "."
    patterns := if rest.isEmpty then [[]] else patterns
    directoriesOnly := cs.getLast? == some '/' }

/-- A path that was found so far, and the patterns for its own name and those below it; no
patterns are left when it is known to match. -/
structure Lead where
  path : String
  isDirectory : Bool
  patterns : List Pattern

/-- Whether a path stands for the directory where paths start. -/
def isHere (path : String) : Bool := Path.components path == [.current]

/-- The path of a name in a directory. -/
def below (directory name : String) : String :=
  if isHere directory then name else Path.join directory name

/-- The paths in a directory, in the order of their names. -/
def childLeads (directory : String) (patterns : List Pattern) :
    List String → Procedure (List Lead)
  | [] => pure []
  | name :: names => do
    let path := below directory name
    let lead := ⟨path, ← Procedure.isDirectory path, patterns⟩
    return lead :: (← childLeads directory patterns names)

/-- What to look at next below a path. -/
def follow (path : String) (isDirectory : Bool) : List Pattern → Procedure (List Lead)
  | [] => pure []
  | pattern :: patterns => do
    let enter (path : String) : Procedure (List Lead) := do
      let isDirectory ← Procedure.isDirectory path
      if patterns.isEmpty then return [⟨path, isDirectory, []⟩]
      else follow path isDirectory patterns
    match pattern.literal? with
    | some name =>
      let special := name = "." || name = ".."
      let next := below path name
      if ← if special then pure isDirectory else Procedure.isPresent next then enter next
      else return []
    | none =>
      if !isDirectory then return []
      else match ← Procedure.list path with
        | .error _ => return []
        | .ok names =>
          let sorted := names.mergeSort fun a b => (Path.compareNames a b).isLE
          let children ← childLeads path (pattern :: patterns) sorted
          let dotted := pattern.head? == some (.char '.')
          let parent ←
            if dotted && matchesName pattern ['.', '.'] then enter (Path.join path "..")
            else pure []
          let self ←
            if dotted && matchesName pattern ['.'] then enter (Path.join path ".") else pure []
          return parent ++ self ++ children

/-- Decides on a lead whose first pattern is for its own name: whether it is a result, and
what to look at next. -/
def examine (q : Query) (lead : Lead) : List Pattern → Procedure (Bool × List Lead)
  | [] => pure (!q.directoriesOnly || lead.isDirectory, [])
  | pattern :: patterns => do
    let isMatch := (Path.fileName? lead.path).any fun name => matchesName pattern name.toList
    if !isMatch then return (false, [])
    else if patterns.isEmpty then return (!q.directoriesOnly || lead.isDirectory, [])
    else return (false, ← follow lead.path lead.isDirectory patterns)

/-- Decides on a lead. -/
def decide (q : Query) (lead : Lead) : Procedure (Bool × List Lead) := do
  match lead.patterns with
  | pattern :: patterns =>
    if pattern.isDirectories then
      let patterns := patterns.dropWhile Pattern.isDirectories
      let inside ←
        if lead.isDirectory then follow lead.path true (pattern :: patterns) else pure []
      if patterns.isEmpty then return (lead.isDirectory, inside)
      else
        let (found, next) ← examine q lead patterns
        return (found, next ++ inside)
    else examine q lead (pattern :: patterns)
  | [] => examine q lead []

/-- Follows leads, the first one first, and gives the paths that match.  The fuel bounds
the number of leads. -/
def explore (q : Query) : Nat → List Lead → Procedure (List String)
  | 0, _ | _, [] => pure []
  | fuel + 1, lead :: leads => do
    let (found, next) ← decide q lead
    let rest ← explore q fuel (next ++ leads)
    return if found then lead.path :: rest else rest

/-- The most paths that a search looks at. -/
def maxLeads : Nat := 1000000

/-- The paths that match a pattern. -/
def search (q : Query) : Procedure (List String) := do
  let isDirectory ← Procedure.isDirectory q.scope
  explore q maxLeads (← follow q.scope isDirectory q.patterns)

end MutationTesting.Glob
