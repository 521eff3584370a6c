import MutationTesting.Shell.Rules.Value
import MutationTesting.Shell.Tool
import MutationTesting.Text.Search

/-!
# States of rules at work

A `State` holds the variables and arrays of a program, the current record with its fields, and
what is left to read.  `Work` is a computation on one inside of a process of the shell.
-/

namespace MutationTesting.Shell.Rules

open Text (Regex)

/-- A place for a value or for an array, which is given by its number. -/
inductive Cell where
  | value (v : Value)
  | array (n : Nat)

/-- An array: its elements by key, the one that was used last first. -/
abbrev Table := List (String × Value)

/-- A file or the output of a command that is read line by line. -/
structure Reader where
  key : String
  rest : List Char

/-- What a program has set and what it has open. -/
structure State where
  globals : List (String × Cell) := []
  /-- The variables of the function that runs. -/
  locals : List (String × Cell) := []
  arrays : List (Nat × Table) := []
  fresh : Nat := 0
  record : String := ""
  fields : Array Value := #[]
  /-- Whether the fields are those of the record. -/
  isSplit : Bool := true
  /-- What is left of the file that records are read from, if one is open. -/
  rest : Option (List Char) := none
  /-- The number of the next argument that may name a file. -/
  nextArg : Nat := 1
  /-- Whether an argument named a file. -/
  sawFile : Bool := false
  readers : List Reader := []
  /-- The files that have been written to. -/
  written : List String := []
  /-- What goes to commands, the last text first. -/
  pipes : List (String × List String) := []
  /-- The rules whose ranges are open. -/
  ranges : List Nat := []
  programs : List (String × Regex.Program) := []
  /-- The status that the program was told to end with. -/
  status : Nat := 0

/-- What ends a statement before its last step. -/
inductive Leave where
  | next
  | exit
  | back (value : Value)
  | leave
  | again
  /-- Ends the run with a message. -/
  | broken (message : String)

/-- A run of a program inside of a run of the shell. -/
abbrev Work := ExceptT Leave (StateT State Eval)

/-- Runs a command of the shell on an input, and gives what it prints if that is wanted. -/
abbrev RunCommand := String → Option String → Bool → Eval String

namespace Work

def broken {α : Type} (message : String) : Work α := throw (.broken message)

/-- A computation of the process. -/
def ofEval {α : Type} (x : Eval α) : Work α := ExceptT.lift (StateT.lift x)

/-! ### Variables -/

def cell? (name : String) : Work (Option Cell) := do
  let s ← get
  return (s.locals.lookup name).or (s.globals.lookup name)

def setCell (name : String) (c : Cell) : Work Unit := modify fun s =>
  if (s.locals.lookup name).isSome then
    { s with locals := s.locals.map fun (n, old) => if n == name then (n, c) else (n, old) }
  else if (s.globals.lookup name).isSome then
    { s with globals := s.globals.map fun (n, old) => if n == name then (n, c) else (n, old) }
  else { s with globals := (name, c) :: s.globals }

def global (name : String) : Work Value := do
  match (← get).globals.lookup name with
  | some (.value v) => return v
  | _ => return .unset

def setGlobal (name : String) (v : Value) : Work Unit := modify fun s =>
  { s with globals := (name, .value v) :: s.globals.filter (·.1 != name) }

/-- The format for numbers that become texts. -/
def convert : Work String := do
  match ← global "CONVFMT" with
  | .unset => return "%.6g"
  | v => return v.toText "%.6g"

def textOf (v : Value) : Work String := do
  match v with
  | .text s | .numeric s _ => return s
  | v => return v.toText (← convert)

/-- The program of a regular expression that is given by a text. -/
def programOf (text : String) : Work Regex.Program := do
  match (← get).programs.lookup text with
  | some p => return p
  | none =>
    match Regex.parse .scripting text.toList with
    | .error _ => broken s!"regular expression compile failed (bad expression)\n{text}"
    | .ok r =>
      let p := r.compile
      modify fun s => { s with programs := (text, p) :: s.programs.take 20 }
      return p

/-! ### Fields -/

/-- Parts a text by a separator as fields are parted. -/
def splitBy (separator text : String) : Work (List String) := do
  let cs := text.toList
  if separator = " " then return splitAtBlanks cs
  else if cs.isEmpty then return []
  else match separator.toList with
    | [] => return cs.map fun c => String.ofList [c]
    | [c] => return (splitAt (· == c) cs).map String.ofList
    | _ => return splitByRegex (← programOf separator) cs (cs.length + 1) 0

/-- Parts the record into fields if that has not been done. -/
def split : Work Unit := do
  let s ← get
  if !s.isSplit then
    let separator ← textOf (← global "FS")
    let paragraphs := (← textOf (← global "RS")).isEmpty
    let parts ← if paragraphs && separator != " " then do
        -- without a separator of records, the end of a line parts fields as well
        let lines := (splitAt (· == '\n') s.record.toList).map String.ofList
        pure (← lines.mapM (splitBy separator)).flatten
      else splitBy separator s.record
    modify fun s => { s with fields := (parts.map Value.ofInput).toArray, isSplit := true }

/-- Sets the record, whose fields are then split anew. -/
def setRecord (text : String) : Work Unit := modify fun s =>
  { s with record := text, fields := #[], isSplit := false }

/-- Makes the record anew of its fields. -/
def joinFields : Work Unit := do
  let separator ← textOf (← global "OFS")
  let texts ← (← get).fields.toList.mapM textOf
  modify fun s => { s with record := separator.intercalate texts }

/-- The text of a field; field 0 is the record. -/
def field (n : Int) : Work Value := do
  if n < 0 then broken s!"negative field index ${n}"
  else if n = 0 then return .ofInput (← get).record
  else
    split
    return ((← get).fields[n.toNat - 1]?).getD .unset

/-- Lets there be so many fields. -/
def setFieldCount (n : Nat) : Work Unit := do
  split
  modify fun s =>
    let kept := s.fields.toList.take n
    { s with fields :=
        (kept ++ List.replicate (n - kept.length) (Value.text "")).toArray }
  joinFields

/-- Sets a field, after which the record is joined anew. -/
def setField (n : Int) (v : Value) : Work Unit := do
  if n < 0 then broken s!"negative field index ${n}"
  else if n = 0 then setRecord (← textOf v)
  else
    split
    let count := (← get).fields.size
    if count < n.toNat then
      modify fun s => { s with fields :=
        (s.fields.toList ++ List.replicate (n.toNat - count) (Value.text "")).toArray }
    modify fun s => { s with fields := s.fields.setIfInBounds (n.toNat - 1) v }
    joinFields

/-! ### Names -/

/-- The value of a variable. -/
def readName (name : String) : Work Value := do
  if name = "NF" then
    split
    return .ofNat (← get).fields.size
  else match ← cell? name with
    | some (.value v) => return v
    | _ => return .unset

/-- Sets a variable. -/
def writeName (name : String) (v : Value) : Work Unit := do
  if name = "NF" then setFieldCount (truncated v.toFloat).toNat else setCell name (.value v)

/-- The number of the array that a name has; one that is not there is made. -/
def arrayOf (name : String) : Work Nat := do
  match ← cell? name with
  | some (.array n) => return n
  | some (.value (.number _)) | some (.value (.text _)) | some (.value (.numeric _ _)) =>
    broken s!"type error in arg(1) in reference to array {name}"
  | _ => do
    let n := (← get).fresh
    modify fun s => { s with fresh := n + 1, arrays := (n, []) :: s.arrays }
    setCell name (.array n)
    return n

/-- The array with a number. -/
def table (n : Nat) : Work Table := do return ((← get).arrays.lookup n).getD []

def setTable (n : Nat) (t : Table) : Work Unit := modify fun s =>
  { s with arrays := (n, t) :: s.arrays.filter (·.1 != n) }

/-- The value of an element; one that is not there is made. -/
def element (n : Nat) (key : String) : Work Value := do
  let t ← table n
  let v := (t.lookup key).getD .unset
  setTable n ((key, v) :: t.filter (·.1 != key))
  return v

/-- Sets one element of an array. -/
def setElement (n : Nat) (key : String) (v : Value) : Work Unit := do
  setTable n ((key, v) :: (← table n).filter (·.1 != key))

/-! ### Order of keys -/

/-- A number that keys are ordered by. -/
def keyHash (key : String) : UInt32 :=
  key.toList.foldl (fun (h : UInt32) c => (h * 16777619) ^^^ c.toNat.toUInt32) 2166136261

/-- The number of places for keys, of which there are so many. -/
def placeCount : Nat → Nat → Nat → Nat
  | 0, size, _ => size
  | fuel + 1, size, count => if size * 12 < count then placeCount fuel (2 * size) count else size

/-- The keys of an array in the order in which a loop takes them. -/
def keysOf (t : Table) : List String :=
  let size := placeCount 30 64 t.length
  let place (key : String) : Nat := (keyHash key).toNat % size
  (t.map (·.1)).mergeSort fun a b => place a ≤ place b

/-! ### Reading records -/

/-- The record at the start of a text, and what follows it. -/
def nextRecord (cs : List Char) : Work (Option (String × List Char)) := do
  if cs.isEmpty then return none
  else
    let separator ← textOf (← global "RS")
    match separator.toList with
    | [] =>
      let cs := cs.dropWhile (· == '\n')
      if cs.isEmpty then return none
      else
        match Text.firstSplit? ['\n', '\n'] cs with
        | some (before, after) => return some (String.ofList before, after.dropWhile (· == '\n'))
        | none =>
          let body := (cs.reverse.dropWhile (· == '\n')).reverse
          return some (String.ofList body, [])
    | [c] =>
      let body := cs.takeWhile (· != c)
      return some (String.ofList body, cs.drop (body.length + 1))
    | _ =>
      let p ← programOf separator
      match Regex.search? p cs 0 with
      | some m =>
        if m.start = m.stop then return some (String.ofList cs, [])
        else return some (String.ofList (cs.take m.start), cs.drop m.stop)
      | none =>
        let body := if cs.getLast? == some '\n' then cs.dropLast else cs
        return some (String.ofList body, [])

/-- Reads a file, or the standard input. -/
def openFile (path : String) : Work (Option (List Char)) := do
  if path = "-" || path = "/dev/stdin" then
    match ← ofEval (inputOf 0) with
    | some n => return some (← ofEval (readFlow n)).toList
    | none => return some []
  else if path = "/dev/null" then return some []
  else match Process.readFile (← ofEval get).disk path with
    | .ok text => return some text.toList
    | .error _ => return none

/-- Gives a variable a value by an argument such as `n=5`. -/
def assignment? (arg : String) : Option (String × String) :=
  let cs := arg.toList
  let name := cs.takeWhile isNameChar
  match cs.drop name.length with
  | '=' :: value => if name.head?.any isNameStart then
      some (String.ofList name, String.ofList value) else none
  | _ => none

/-- Opens the next file that an argument names, or the standard input if none does.  The fuel
bounds the number of arguments. -/
def openNext : Nat → Work Bool
  | 0 => return false
  | fuel + 1 => do
    let count := (truncated (← global "ARGC").toFloat).toNat
    let s ← get
    if count ≤ s.nextArg then
      if s.sawFile then return false
      else
        let text ← openFile "-"
        modify fun s => { s with sawFile := true, rest := text }
        return text.isSome
    else
      modify fun s => { s with nextArg := s.nextArg + 1 }
      let arg ← textOf (((← table (← arrayOf "ARGV")).lookup (toString s.nextArg)).getD .unset)
      match assignment? arg with
      | some (name, value) => do
        setGlobal name (.ofInput value)
        openNext fuel
      | none =>
        if arg.isEmpty then openNext fuel
        else
          match ← openFile arg with
          | some text => do
            setGlobal "FILENAME" (.text arg)
            setGlobal "FNR" (.number 0)
            modify fun s => { s with rest := some text, sawFile := true }
            return true
          | none =>
            let reason := if (Process.readFile (← ofEval get).disk arg) matches .error .isADirectory
              then "Is a directory" else "No such file or directory"
            broken s!"cannot open \"{arg}\" ({reason})"

/-- Reads the next record of the files that arguments name.  The fuel bounds the number of files. -/
def readRecord : Nat → Work (Option String)
  | 0 => return none
  | fuel + 1 => do
    match (← get).rest with
    | none => do
      if ← openNext 10000 then readRecord fuel else return none
    | some cs =>
      match ← nextRecord cs with
      | none => do
        modify fun s => { s with rest := none }
        readRecord fuel
      | some (text, rest) => do
        modify fun s => { s with rest := some rest }
        for name in ["NR", "FNR"] do
          setGlobal name (.number ((← global name).toFloat + 1))
        return some text

end Work

end MutationTesting.Shell.Rules
