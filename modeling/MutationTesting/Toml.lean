/-!
# TOML documents

A `Toml` is a value of a configuration file.  `TableBuilder` puts the key-value pairs
and table headers of a file together in their order, and refuses what defines a key or
a table twice.
-/

namespace MutationTesting

/-- A value; of floats and points in time it matters only that they are such. -/
inductive Toml where
  | string (text : String)
  | integer (value : Int)
  | float
  | boolean (value : Bool)
  | datetime
  | array (items : List Toml)
  | table (fields : List (String × Toml))

namespace Toml

mutual

/-- What a key of a table under construction stands for. -/
inductive Entry where
  | value (value : Toml)
  | table (table : TableBuilder)
  /-- The tables that headers in double brackets have added under one name. -/
  | tables (tables : List TableBuilder)

/-- A table under construction. -/
inductive TableBuilder where
  /-- `implied` says that only longer names have mentioned the table so far, and `dotted`
  that those stood in front of a value. -/
  | mk (implied dotted : Bool) (entries : List (String × Entry))

end

namespace TableBuilder

def implied : TableBuilder → Bool
  | mk implied _ _ => implied

def dotted : TableBuilder → Bool
  | mk _ dotted _ => dotted

def entries : TableBuilder → List (String × Entry)
  | mk _ _ entries => entries

def empty : TableBuilder := mk false false []

def find? (t : TableBuilder) (key : String) : Option Entry :=
  (t.entries.find? (·.1 == key)).map (·.2)

/-- Sets what a key stands for. -/
def put (t : TableBuilder) (key : String) (entry : Entry) : TableBuilder :=
  mk t.implied t.dotted
    (if t.entries.any (·.1 == key) then
      t.entries.map fun old => if old.1 == key then (key, entry) else old
    else t.entries ++ [(key, entry)])

/-- Changes the table that a name leads to, and makes the tables on the way as needed.
A name in front of a value may not lead through a table that has a header. -/
def alter (byKey : Bool) (change : TableBuilder → Option TableBuilder) :
    List String → TableBuilder → Option TableBuilder
  | [], t => change t
  | key :: path, t =>
    match t.find? key with
    | none => do
      let sub ← alter byKey change path (mk true byKey [])
      return t.put key (.table sub)
    | some (.value _) => none
    | some (.tables tables) => do
      let last ← tables.getLast?
      let sub ← alter byKey change path last
      return t.put key (.tables (tables.dropLast ++ [sub]))
    | some (.table sub) => do
      if byKey && !sub.implied then none
      let sub ← alter byKey change path sub
      return t.put key (.table sub)

/-- Gives a key a value, at the end of a dotted name. -/
def assign (path : List String) (key : String) (value : Toml) :
    TableBuilder → Option TableBuilder :=
  alter true (fun t =>
    if t.dotted == path.isEmpty || (t.find? key).isSome then none
    else some (t.put key (.value value))) path

/-- Opens a table with a header in single brackets. -/
def openTable (path : List String) (key : String) : TableBuilder → Option TableBuilder :=
  alter false (fun t =>
    match t.find? key with
    | none => some (t.put key (.table empty))
    | some (.table sub) =>
      if sub.implied && !sub.dotted then some (t.put key (.table (mk false false sub.entries)))
      else none
    | some _ => none) path

/-- Adds a table with a header in double brackets. -/
def addTable (path : List String) (key : String) : TableBuilder → Option TableBuilder :=
  alter false (fun t =>
    match t.find? key with
    | none => some (t.put key (.tables [empty]))
    | some (.tables tables) => some (t.put key (.tables (tables ++ [empty])))
    | some _ => none) path

end TableBuilder

mutual

/-- The value of a finished entry. -/
def Entry.finish : Entry → Toml
  | .value value => value
  | .table t => .table t.finish
  | .tables ts => .array (finishTables ts)

/-- The fields of a finished table. -/
def TableBuilder.finish : TableBuilder → List (String × Toml)
  | .mk _ _ entries => finishEntries entries

def finishTables : List TableBuilder → List Toml
  | [] => []
  | t :: ts => .table t.finish :: finishTables ts

def finishEntries : List (String × Entry) → List (String × Toml)
  | [] => []
  | (key, entry) :: entries => (key, entry.finish) :: finishEntries entries

end

end Toml

end MutationTesting
