import MutationTesting.Text.Regex.Match

/-!
# Rules for records

What a program consists of that works on records: rules, each of which has a pattern that says
for which records it is and statements that say what is done, and functions.
-/

namespace MutationTesting.Shell.Rules

open Text (Regex)

/-- An operator on numbers. -/
inductive Operator where
  | plus
  | minus
  | times
  | quotient
  | modulo
  | power
  deriving DecidableEq, Repr

/-- A comparison of two values. -/
inductive Comparison where
  | less
  | atMost
  | equal
  | unequal
  | greater
  | atLeast
  deriving DecidableEq, Repr

mutual

/-- An expression. -/
inductive Expr where
  | number (f : Float)
  | text (s : String)
  | regex (program : Regex.Program)
  | field (index : Expr)
  | name (name : String)
  | element (array : String) (index : List Expr)
  | assign (operator : Option Operator) (target value : Expr)
  | choice (test yes no : Expr)
  | either (a b : Expr)
  | both (a b : Expr)
  | matches (negated : Bool) (subject pattern : Expr)
  | isIn (index : List Expr) (array : String)
  | compare (comparison : Comparison) (a b : Expr)
  | concat (a b : Expr)
  | compute (operator : Operator) (a b : Expr)
  | negate (a : Expr)
  | numeric (a : Expr)
  | not (a : Expr)
  /-- Adds to a variable; the value is that before or after. -/
  | step (before : Bool) (delta : Float) (target : Expr)
  | call (function : String) (args : List Expr)
  | builtin (function : String) (args : List Expr)
  | getline (target : Option Expr) (source : LineSource)

/-- Where a line is read from. -/
inductive LineSource where
  | records
  | file (path : Expr)
  | command (text : Expr)

end

/-- Where a statement prints to. -/
inductive Destination where
  | output
  | file (path : Expr) (append : Bool)
  | command (text : Expr)

/-- A statement. -/
inductive Statement where
  | expr (e : Expr)
  | print (args : List Expr) (place : Destination)
  | printf (args : List Expr) (place : Destination)
  | conditional (test : Expr) (yes no : List Statement)
  | loop (test : Expr) (body : List Statement)
  | repeating (body : List Statement) (test : Expr)
  | counting (start : Option Statement) (test : Option Expr) (step : Option Statement)
      (body : List Statement)
  | each (name array : String) (body : List Statement)
  | block (body : List Statement)
  | next
  | exit (status : Option Expr)
  | back (value : Option Expr)
  | leave
  | again
  | delete (array : String) (index : List Expr)
  | deleteAll (array : String)

/-- The records that a rule is for. -/
inductive Pattern where
  | start
  | stop
  | always
  | test (e : Expr)
  | range (first last : Expr)

/-- What is done at some records. -/
structure Rule where
  pattern : Pattern
  /-- What is done; without statements the record is printed. -/
  action : Option (List Statement)

/-- A function of the program. -/
structure Function where
  name : String
  params : List String
  body : List Statement

/-- Rules in their order, and functions. -/
structure Program where
  rules : List Rule := []
  functions : List Function := []

end MutationTesting.Shell.Rules
