import MutationTesting.Text.Regex.Match

/-!
# Scripts for editing streams

What a script consists of that edits a stream line by line: commands with addresses that say
for which lines they are.
-/

namespace MutationTesting.Shell.Editor

open Text (Regex)

/-- A line or lines. -/
inductive Address where
  | number (n : Nat)
  | last
  /-- Lines in which an expression occurs; none stands for the last one that was used. -/
  | found (program : Option Regex.Program)
  /-- Every so many lines from one on. -/
  | step (first step : Nat)
  deriving Repr

/-- Where lines from an address on end. -/
inductive RangeEnd where
  | at (address : Address)
  | after (count : Nat)
  | multiple (n : Nat)
  deriving Repr

/-- The lines that a command is for. -/
structure Selection where
  first : Option Address := none
  stop : Option RangeEnd := none
  negated : Bool := false
  deriving Repr

/-- How the letters of a replacement are changed. -/
inductive Casing where
  | upper
  | lower
  | asIs
  deriving DecidableEq, Repr

/-- A part of what replaces a match. -/
inductive Piece where
  | text (cs : List Char)
  | group (number : Nat)
  | casing (casing : Casing)
  /-- The same for the next character alone. -/
  | casingOnce (casing : Casing)
  deriving DecidableEq, Repr

/-- A replacement of matches on a line. -/
structure Substitution where
  program : Option Regex.Program
  pieces : List Piece
  /-- The number of the first match that is replaced. -/
  first : Nat := 1
  all : Bool := false
  prints : Nat := 0
  file : Option String := none
  deriving Repr

/-- What a command does. -/
inductive Action where
  /-- Goes on after the commands in braces unless the line is selected. -/
  | block (after : Nat)
  | nothing
  | substitute (s : Substitution)
  | translate (table : List (Char × Char))
  | delete
  | deleteFirst
  | print
  | printFirst
  | next
  | appendNext
  | get
  | appendHeld
  | hold
  | appendToHeld
  | exchange
  | append (text : List Char)
  | insert (text : List Char)
  | change (text : List Char)
  | quit (status : Nat) (printing : Bool)
  | number
  /-- Prints the name of the file. -/
  | showFile
  | list
  | clear
  | read (file : String)
  | write (file : String)
  | jump (label : String)
  | jumpIfReplaced (label : String)
  | jumpUnlessReplaced (label : String)
  | label (name : String)
  deriving Repr

/-- A command with the lines that it is for. -/
structure Command where
  selection : Selection
  action : Action
  deriving Repr

/-- Commands by their number, to which jumps refer. -/
abbrev Script := Array Command

end MutationTesting.Shell.Editor
