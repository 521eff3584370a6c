import MutationTesting.Json

/-!
# Reading JSON

`Json.parse?` reads a text that is one JSON value with blanks around it, and nothing else.
A string may not hold control characters, and numbers are written as the format has them:
no leading zeros, and digits on both sides of a point.
-/

namespace MutationTesting.Json

/-- The blanks of the format. -/
def isSpace (c : Char) : Bool := c == ' ' || c == '\n' || c == '\t' || c == '\r'

def skipSpace (cs : List Char) : List Char := cs.dropWhile isSpace

def isDigit (c : Char) : Bool := '0' ≤ c && c ≤ '9'

def hexValue? (c : Char) : Option Nat :=
  if '0' ≤ c && c ≤ '9' then some (c.toNat - '0'.toNat)
  else if 'a' ≤ c && c ≤ 'f' then some (c.toNat - 'a'.toNat + 10)
  else if 'A' ≤ c && c ≤ 'F' then some (c.toNat - 'A'.toNat + 10)
  else none

/-! ### Strings -/

/-- A code unit of a string: a character, or half of a surrogate pair that stands alone. -/
inductive CodeUnit where
  | char (c : Char)
  | half (n : Nat)

def isHighHalf (n : Nat) : Bool := 0xD800 ≤ n && n < 0xDC00

def isLowHalf (n : Nat) : Bool := 0xDC00 ≤ n && n < 0xE000

/-- Adds a code unit that was written by its number to those before it, the last one first;
a low half completes the high half before it. -/
def addUnit (units : List CodeUnit) (n : Nat) : List CodeUnit :=
  if isHighHalf n then .half n :: units
  else if isLowHalf n then
    match units with
    | .half high :: before =>
      if isHighHalf high then
        .char (Char.ofNat (0x10000 + (high - 0xD800) * 0x400 + (n - 0xDC00))) :: before
      else .half n :: units
    | _ => .half n :: units
  else .char (Char.ofNat n) :: units

/-- The character that follows a backslash stands for. -/
def simpleEscape? (c : Char) : Option Char :=
  match c with
  | '"' => some '"'
  | '\\' => some '\\'
  | '/' => some '/'
  | 'b' => some '\x08'
  | 'f' => some '\x0c'
  | 'n' => some '\n'
  | 'r' => some '\r'
  | 't' => some '\t'
  | _ => none

/-- Reads the rest of a string up to its closing quote; `units` are those before, the last
one first. -/
def stringRest? (units : List CodeUnit) : List Char → Option (List CodeUnit × List Char)
  | [] => none
  | '"' :: cs => some (units, cs)
  | '\\' :: 'u' :: a :: b :: c :: d :: cs =>
    match hexValue? a, hexValue? b, hexValue? c, hexValue? d with
    | some a, some b, some c, some d =>
      stringRest? (addUnit units (((a * 16 + b) * 16 + c) * 16 + d)) cs
    | _, _, _, _ => none
  | '\\' :: c :: cs =>
    match simpleEscape? c with
    | some c => stringRest? (.char c :: units) cs
    | none => none
  | c :: cs => if c.toNat < 0x20 || c == '\\' then none else stringRest? (.char c :: units) cs

/-- The text of code units given last one first, if no half stands alone. -/
def textOf? (units : List CodeUnit) : Option String :=
  let chars := units.foldl (fun (acc : Option (List Char)) unit =>
    match acc, unit with
    | some cs, .char c => some (c :: cs)
    | _, _ => none) (some [])
  chars.map String.ofList

/-! ### Numbers -/

/-- Parts one or more digits off. -/
def digits? (cs : List Char) : Option (List Char × List Char) :=
  let digits := cs.takeWhile isDigit
  if digits.isEmpty then none else some (digits, cs.dropWhile isDigit)

/-- Parts the digits before a point off: a zero, or digits that start with none. -/
def wholePart? : List Char → Option (List Char × List Char)
  | '0' :: cs => if cs.head?.any isDigit then none else some (['0'], cs)
  | cs => digits? cs

/-- Parts a point and the digits after it off, if there is a point. -/
def fractionPart? : List Char → Option (List Char × List Char)
  | '.' :: cs => (digits? cs).map fun (digits, rest) => ('.' :: digits, rest)
  | cs => some ([], cs)

/-- Parts an exponent off, if there is one. -/
def exponentPart? : List Char → Option (List Char × List Char)
  | c :: cs =>
    if c == 'e' || c == 'E' then
      match cs with
      | '+' :: cs => (digits? cs).map fun (digits, rest) => (c :: '+' :: digits, rest)
      | '-' :: cs => (digits? cs).map fun (digits, rest) => (c :: '-' :: digits, rest)
      | cs => (digits? cs).map fun (digits, rest) => (c :: digits, rest)
    else some ([], c :: cs)
  | [] => some ([], [])

/-- Parts a number off. -/
def number? (cs : List Char) : Option (List Char × List Char) := do
  let (sign, cs) := match cs with
    | '-' :: cs => (['-'], cs)
    | cs => ([], cs)
  let (whole, cs) ← wholePart? cs
  let (fraction, cs) ← fractionPart? cs
  let (exponent, cs) ← exponentPart? cs
  return (sign ++ whole ++ fraction ++ exponent, cs)

/-! ### Values -/

/-- Parts a word off. -/
def keyword? (word : List Char) (value : Json) (cs : List Char) : Option (Json × List Char) :=
  if word.isPrefixOf cs then some (value, cs.drop word.length) else none

mutual

/-- Reads a value.  The fuel bounds the number of nested and successive values. -/
def value? : Nat → List Char → Option (Json × List Char)
  | 0, _ => none
  | fuel + 1, cs =>
    match skipSpace cs with
    | '"' :: cs => do
      let (units, cs) ← stringRest? [] cs
      return ((textOf? units).elim .broken .string, cs)
    | '[' :: cs =>
      match skipSpace cs with
      | ']' :: cs => some (.array [], cs)
      | cs => items? fuel [] cs
    | '\x7b' :: cs =>
      match skipSpace cs with
      | '\x7d' :: cs => some (.object [], cs)
      | cs => fields? fuel (some []) cs
    | 'n' :: cs => keyword? ['u', 'l', 'l'] .null cs
    | 't' :: cs => keyword? ['r', 'u', 'e'] (.bool true) cs
    | 'f' :: cs => keyword? ['a', 'l', 's', 'e'] (.bool false) cs
    | cs => do
      let (text, cs) ← number? cs
      return (.number (String.ofList text), cs)

/-- Reads the rest of an array; `items` are those before, the last one first. -/
def items? : Nat → List Json → List Char → Option (Json × List Char)
  | 0, _, _ => none
  | fuel + 1, items, cs => do
    let (item, cs) ← value? fuel cs
    match skipSpace cs with
    | ']' :: cs => some (.array (item :: items).reverse, cs)
    | ',' :: cs => items? fuel (item :: items) cs
    | _ => none

/-- Reads the rest of an object; `fields` are those before, the last one first, and none
if one of their names is no text. -/
def fields? : Nat → Option (List (String × Json)) → List Char → Option (Json × List Char)
  | 0, _, _ => none
  | fuel + 1, fields, cs =>
    match skipSpace cs with
    | '"' :: cs => do
      let (units, cs) ← stringRest? [] cs
      match skipSpace cs with
      | ':' :: cs =>
        let (value, cs) ← value? fuel cs
        let fields := do return ((← textOf? units), value) :: (← fields)
        match skipSpace cs with
        | '\x7d' :: cs => some (fields.elim .broken fun fields => .object fields.reverse, cs)
        | ',' :: cs => fields? fuel fields cs
        | _ => none
      | _ => none
    | _ => none

end

/-- Reads a text that is one value. -/
def parse? (text : String) : Option Json :=
  match value? (text.length + 1) text.toList with
  | some (json, rest) => if (skipSpace rest).isEmpty then some json else none
  | none => none

end MutationTesting.Json
