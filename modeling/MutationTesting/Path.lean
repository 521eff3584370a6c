/-!
# Paths

A path is the text that names a file.  `components` gives the steps it takes, `parent?`,
`fileName?`, `fileStem?` and `extension?` its parts, and `join` and `withFileName` build
paths.  Repeated slashes and steps to `.` count for nothing, except a `.` at the start.
-/

namespace MutationTesting.Path

/-- One step of a path.  The order of the constructors is the order in which paths sort. -/
inductive Component where
  | root
  | current
  | parent
  | normal (name : String)
  deriving DecidableEq, Repr

/-- The texts between the slashes of a path, each with the length of the path up to its
end. -/
def segments (path : List Char) : List (List Char × Nat) :=
  let step (c : Char) : List (List Char) → List (List Char)
    | [] => [[c]]
    | s :: rest => if c = '/' then [] :: s :: rest else (c :: s) :: rest
  let parts := path.foldr step [[]]
  let place (acc : List (List Char × Nat) × Nat) (part : List Char) :=
    ((part, acc.2 + part.length) :: acc.1, acc.2 + part.length + 1)
  (parts.foldl place ([], 0)).1.reverse

/-- The components of a path, each with the length of the path up to its end. -/
def placedComponents (path : List Char) : List (Component × Nat) :=
  let rooted := path.head? == some '/'
  let body := (segments path).zipIdx.filterMap fun ((name, stop), i) =>
    if name.isEmpty then none
    else if name = ['.'] then if i = 0 && !rooted then some (Component.current, stop) else none
    else if name = ['.', '.'] then some (.parent, stop)
    else some (.normal (String.ofList name), stop)
  if rooted then (.root, 1) :: body else body

def components (path : String) : List Component :=
  (placedComponents path.toList).map (·.1)

def isAbsolute (path : String) : Bool := path.toList.head? == some '/'

/-- The path without its last step. -/
def parent? (path : String) : Option String :=
  match (placedComponents path.toList).reverse with
  | [] => none
  | (.root, _) :: _ => none
  | _ :: [] => some ""
  | _ :: (_, stop) :: _ => some (String.ofList (path.toList.take stop))

/-- The last step of a path, when it is a name. -/
def fileName? (path : String) : Option String :=
  match (components path).getLast? with
  | some (.normal name) => some name
  | _ => none

/-- A file name parted at its last dot; a dot at its start parts nothing. -/
def splitName (name : String) : String × Option String :=
  let cs := name.toList
  let tail := (cs.reverse.takeWhile (· != '.')).reverse
  let stem := (cs.reverse.dropWhile (· != '.')).drop 1 |>.reverse
  if name = ".." || stem.isEmpty then (name, none)
  else (String.ofList stem, some (String.ofList tail))

def extension? (path : String) : Option String :=
  (fileName? path).bind fun name => (splitName name).2

def fileStem? (path : String) : Option String :=
  (fileName? path).map fun name => (splitName name).1

/-- The path that leads from `base` on along `path`; an absolute path starts anew. -/
def join (base path : String) : String :=
  if isAbsolute path || base = "" then path
  else if base.toList.getLast? == some '/' then base ++ path
  else base ++ "/" ++ path

/-- The path with its last name replaced, or with `name` added when it ends in none. -/
def withFileName (path name : String) : String :=
  match fileName? path with
  | none => join path name
  | some _ => join ((parent? path).getD "") name

/-- The place of a kind of component in the order of paths. -/
def Component.rank : Component → Nat
  | .root => 0
  | .current => 1
  | .parent => 2
  | .normal _ => 3

/-- Texts sort by their bytes, which is the order of their characters. -/
def compareNames (a b : String) : Ordering := compare a.toList b.toList

def Component.compare : Component → Component → Ordering
  | .normal a, .normal b => compareNames a b
  | a, b => Ord.compare a.rank b.rank

/-- Paths sort by their components. -/
def compare (a b : String) : Ordering :=
  let rec go : List Component → List Component → Ordering
    | [], [] => .eq
    | [], _ :: _ => .lt
    | _ :: _, [] => .gt
    | x :: xs, y :: ys => (x.compare y).then (go xs ys)
  go (components a) (components b)

end MutationTesting.Path
