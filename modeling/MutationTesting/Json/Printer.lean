import MutationTesting.Json
import MutationTesting.Text.Quoted

/-!
# Printing JSON

`Json.pretty` puts every item and field on a line of its own, indented by two spaces for
each level; `Json.compact` puts a value on one line.
-/

namespace MutationTesting.Json

/-- A control character as it is written in a string. -/
def escapeControl (c : Char) : String :=
  if c = '\x08' then "\\b"
  else if c = '\t' then "\\t"
  else if c = '\n' then "\\n"
  else if c = '\x0c' then "\\f"
  else if c = '\r' then "\\r"
  else "\\u00" ++ (if c.toNat < 16 then "0" else "") ++ String.ofList (Text.hex c.toNat)

/-- A text as a JSON string. -/
def printString (text : String) : String :=
  text.foldl (fun out c =>
    if c = '"' then out ++ "\\\""
    else if c = '\\' then out ++ "\\\\"
    else if c.toNat < 0x20 then out ++ escapeControl c
    else out.push c) "\"" ++ "\""

mutual

/-- Prints a value on one line. -/
def compact : Json → String
  | null => "null"
  | bool value => if value then "true" else "false"
  | number text => text
  | string text => printString text
  | broken => printString "\uFFFD"
  | array items => "[" ++ compactItems items ++ "]"
  | object fields => "\x7b" ++ compactFields fields ++ "\x7d"

def compactItems : List Json → String
  | [] => ""
  | [item] => compact item
  | item :: items => compact item ++ "," ++ compactItems items

def compactFields : List (String × Json) → String
  | [] => ""
  | [(name, value)] => printString name ++ ":" ++ compact value
  | (name, value) :: fields =>
    printString name ++ ":" ++ compact value ++ "," ++ compactFields fields

end

/-- A new line at a level of indentation. -/
def newline (level : Nat) : String := "\n" ++ String.ofList (List.replicate (2 * level) ' ')

mutual

/-- Prints a value over several lines; `level` is the indentation of the line it starts on. -/
def prettyAt (level : Nat) : Json → String
  | null => "null"
  | bool value => if value then "true" else "false"
  | number text => text
  | string text => printString text
  | broken => printString "\uFFFD"
  | array [] => "[]"
  | array items => "[" ++ prettyItems (level + 1) items ++ newline level ++ "]"
  | object [] => "\x7b\x7d"
  | object fields => "\x7b" ++ prettyFields (level + 1) fields ++ newline level ++ "\x7d"

def prettyItems (level : Nat) : List Json → String
  | [] => ""
  | [item] => newline level ++ prettyAt level item
  | item :: items => newline level ++ prettyAt level item ++ "," ++ prettyItems level items

def prettyFields (level : Nat) : List (String × Json) → String
  | [] => ""
  | [(name, value)] => newline level ++ printString name ++ ": " ++ prettyAt level value
  | (name, value) :: fields =>
    newline level ++ printString name ++ ": " ++ prettyAt level value ++ ","
      ++ prettyFields level fields

end

def pretty (json : Json) : String := prettyAt 0 json

end MutationTesting.Json
