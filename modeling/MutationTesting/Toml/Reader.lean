import MutationTesting.Toml.Scalar

/-!
# Reading TOML

`Toml.parse?` reads a whole document of TOML 1.0 as the fields of its outermost table.
-/

namespace MutationTesting.Toml

open Text (isDigit)

/-! ### Blanks, comments and line ends -/

def isSpace (c : Char) : Bool := c == ' ' || c == '\t'

def skipSpace (cs : List Char) : List Char := cs.dropWhile isSpace

/-- Whether a character may stand in a comment, and in a string if nothing else speaks
against it. -/
def isPlain (c : Char) : Bool :=
  c == '\t' || (0x20 ≤ c.toNat && c.toNat != 0x7F)

/-- What follows a line end. -/
def newline? : List Char → Option (List Char)
  | '\n' :: cs => some cs
  | '\r' :: '\n' :: cs => some cs
  | _ => none

def skipComment : List Char → List Char
  | '#' :: cs => cs.dropWhile isPlain
  | cs => cs

/-- What follows the rest of a line that holds nothing more. -/
def lineEnd? (cs : List Char) : Option (List Char) :=
  match skipComment (skipSpace cs) with
  | [] => some []
  | cs => newline? cs

/-- Skips blanks, line ends and comments. -/
def skipFiller (inComment : Bool) : List Char → List Char
  | [] => []
  | '\r' :: '\n' :: cs => skipFiller false cs
  | c :: cs =>
    if c == '\n' then skipFiller false cs
    else if inComment then if isPlain c then skipFiller true cs else c :: cs
    else if isSpace c then skipFiller false cs
    else if c == '#' then skipFiller true cs
    else c :: cs

/-! ### Strings -/

/-- The character of a code point, if there is one. -/
def scalarValue? (n : Nat) : Option Char :=
  if n < 0xD800 || (0xE000 ≤ n && n < 0x110000) then some (Char.ofNat n) else none

/-- The value of hexadecimal digits. -/
def hexNumber? (cs : List Char) : Option Nat :=
  if cs.all (inRadix 16) then some (cs.foldl (fun n c => 16 * n + digitValue c) 0) else none

/-- The character that an escape stands for, and what follows it; the backslash is gone. -/
def escape? : List Char → Option (Char × List Char)
  | 'b' :: cs => some ('\x08', cs)
  | 't' :: cs => some ('\t', cs)
  | 'n' :: cs => some ('\n', cs)
  | 'f' :: cs => some ('\x0c', cs)
  | 'r' :: cs => some ('\r', cs)
  | '"' :: cs => some ('"', cs)
  | '\\' :: cs => some ('\\', cs)
  | 'u' :: a :: b :: c :: d :: cs => do
    let n ← hexNumber? [a, b, c, d]
    let char ← scalarValue? n
    return (char, cs)
  | 'U' :: a :: b :: c :: d :: e :: f :: g :: h :: cs => do
    let n ← hexNumber? [a, b, c, d, e, f, g, h]
    let char ← scalarValue? n
    return (char, cs)
  | _ => none

/-- Reads the rest of a string with escapes on one line; `acc` is its start, the last
character first. -/
def basicRest? : Nat → List Char → List Char → Option (String × List Char)
  | 0, _, _ => none
  | _, _, [] => none
  | _, acc, '"' :: cs => some (String.ofList acc.reverse, cs)
  | fuel + 1, acc, '\\' :: cs => do
    let (c, cs) ← escape? cs
    basicRest? fuel (c :: acc) cs
  | fuel + 1, acc, c :: cs => if isPlain c then basicRest? fuel (c :: acc) cs else none

/-- Reads the rest of a string without escapes on one line. -/
def literalRest? (cs : List Char) : Option (String × List Char) :=
  let body := cs.takeWhile fun c => isPlain c && c != '\x27'
  match cs.drop body.length with
  | '\x27' :: cs => some (String.ofList body, cs)
  | _ => none

/-- Skips blanks and line ends; a carriage return alone is neither. -/
def skipGap : List Char → List Char
  | '\r' :: '\n' :: cs => skipGap cs
  | c :: cs => if isSpace c || c == '\n' then skipGap cs else c :: cs
  | [] => []

/-- Reads the rest of a string over several lines.  Line ends become newlines, up to two
quotes may stand together in it, and before its end.  With escapes, a backslash at the
end of a line takes all blanks and line ends after it away. -/
def multilineRest? (quote : Char) (escapes : Bool) :
    Nat → List Char → List Char → Option (String × List Char)
  | 0, _, _ => none
  | fuel + 1, acc, cs =>
    let quotes := (cs.takeWhile (· == quote)).length
    if 3 ≤ quotes then
      let extra := min (quotes - 3) 2
      some (String.ofList (List.replicate extra quote ++ acc).reverse, cs.drop (extra + 3))
    else match newline? cs with
      | some cs => multilineRest? quote escapes fuel ('\n' :: acc) cs
      | none =>
        match cs with
        | [] => none
        | c :: rest =>
          if escapes && c == '\\' then
            match newline? (skipSpace rest) with
            | some rest => multilineRest? quote escapes fuel acc (skipGap rest)
            | none =>
              match escape? rest with
              | some (c, rest) => multilineRest? quote escapes fuel (c :: acc) rest
              | none => none
          else if isPlain c then multilineRest? quote escapes fuel (c :: acc) rest
          else none

/-- Reads a string of any of the four sorts. -/
def string? (cs : List Char) : Option (String × List Char) :=
  match cs with
  | '"' :: '"' :: '"' :: cs =>
    multilineRest? '"' true (cs.length + 1) [] ((newline? cs).getD cs)
  | '\x27' :: '\x27' :: '\x27' :: cs =>
    multilineRest? '\x27' false (cs.length + 1) [] ((newline? cs).getD cs)
  | '"' :: cs => basicRest? (cs.length + 1) [] cs
  | '\x27' :: cs => literalRest? cs
  | _ => none

/-! ### Keys -/

def isBareKey (c : Char) : Bool :=
  ('a' ≤ c && c ≤ 'z') || ('A' ≤ c && c ≤ 'Z') || isDigit c || c == '_' || c == '-'

/-- Reads one part of a key. -/
def keyPart? (cs : List Char) : Option (String × List Char) :=
  match cs with
  | '"' :: cs => basicRest? (cs.length + 1) [] cs
  | '\x27' :: cs => literalRest? cs
  | cs =>
    let bare := cs.takeWhile isBareKey
    if bare.isEmpty then none else some (String.ofList bare, cs.drop bare.length)

/-- The number of arrays and tables that may not stand in each other, and of the parts
that a key may not have. -/
def depthLimit : Nat := 80

/-- Reads a key of at most `fuel` parts with blanks around them. -/
def keyParts? : Nat → List Char → Option (List String × List Char)
  | 0, _ => none
  | fuel + 1, cs => do
    let (part, cs) ← keyPart? (skipSpace cs)
    match skipSpace cs with
    | '.' :: cs =>
      let (parts, cs) ← keyParts? fuel cs
      return (part :: parts, cs)
    | cs => return ([part], cs)

/-- Reads a key with blanks around its parts. -/
def key? (cs : List Char) : Option (List String × List Char) :=
  keyParts? (depthLimit - 1) cs

/-! ### Values -/

/-- The characters of values that are no strings, arrays or tables. -/
def isWordChar (c : Char) : Bool := isBareKey c || c == '+' || c == '.' || c == ':'

/-- Reads a value that is no string, array or table; a blank may part a date from a time. -/
def word? (cs : List Char) : Option (Toml × List Char) :=
  let word := cs.takeWhile isWordChar
  let rest := cs.drop word.length
  let time := (rest.drop 1).takeWhile isWordChar
  if isDate word && rest.head? == some ' ' && isOffsetTime time then
    some (.datetime, rest.drop (time.length + 1))
  else (scalar? word).map fun value => (value, rest)

mutual

/-- Reads a value inside of `depth` arrays and tables.  The fuel bounds the number of
nested and successive values. -/
def value? : Nat → Nat → List Char → Option (Toml × List Char)
  | 0, _, _ => none
  | fuel + 1, depth, cs =>
    match cs with
    | '[' :: cs => if depthLimit ≤ depth + 1 then none else items? fuel (depth + 1) [] cs
    | '\x7b' :: cs =>
      if depthLimit ≤ depth + 1 then none
      else match skipSpace cs with
        | '\x7d' :: cs => some (.table [], cs)
        | cs => pairs? fuel (depth + 1) .empty cs
    | c :: _ =>
      if c == '"' || c == '\x27' then (string? cs).map fun (text, cs) => (.string text, cs)
      else word? cs
    | [] => none

/-- Reads the rest of an array; `items` are those before, the last one first. -/
def items? : Nat → Nat → List Toml → List Char → Option (Toml × List Char)
  | 0, _, _, _ => none
  | fuel + 1, depth, items, cs =>
    match skipFiller false cs with
    | ']' :: cs => some (.array items.reverse, cs)
    | cs => do
      let (item, cs) ← value? fuel depth cs
      match skipFiller false cs with
      | ']' :: cs => some (.array (item :: items).reverse, cs)
      | ',' :: cs => items? fuel depth (item :: items) cs
      | _ => none

/-- Reads the rest of a table in braces. -/
def pairs? : Nat → Nat → TableBuilder → List Char → Option (Toml × List Char)
  | 0, _, _, _ => none
  | fuel + 1, depth, t, cs => do
    let (path, cs) ← key? cs
    let '=' :: cs := cs | none
    let (value, cs) ← value? fuel depth (skipSpace cs)
    let key ← path.getLast?
    let t ← t.assign path.dropLast key value
    match skipSpace cs with
    | '\x7d' :: cs => some (.table t.finish, cs)
    | ',' :: cs => pairs? fuel depth t cs
    | _ => none

end

/-! ### Documents -/

/-- A document as far as it is read: its tables, and the name of the open one. -/
structure Document where
  root : TableBuilder
  current : List String

/-- Reads a table header, from its first bracket on. -/
def header? (doc : Document) (cs : List Char) : Option (Document × List Char) :=
  match cs with
  | '[' :: '[' :: cs => do
    let (path, cs) ← key? cs
    let ']' :: ']' :: cs := cs | none
    let key ← path.getLast?
    let root ← doc.root.addTable path.dropLast key
    return (⟨root, path⟩, cs)
  | '[' :: cs => do
    let (path, cs) ← key? cs
    let ']' :: cs := cs | none
    let key ← path.getLast?
    let root ← doc.root.openTable path.dropLast key
    return (⟨root, path⟩, cs)
  | _ => none

/-- Reads a key and its value into the open table. -/
def pair? (doc : Document) (cs : List Char) : Option (Document × List Char) := do
  let (path, cs) ← key? cs
  let '=' :: cs := cs | none
  let (value, cs) ← value? (cs.length + 1) 0 (skipSpace cs)
  let key ← path.getLast?
  let root ← doc.root.alter false (·.assign path.dropLast key value) doc.current
  return ({ doc with root }, cs)

/-- Reads the lines of a document. -/
def lines? : Nat → Document → List Char → Option Document
  | 0, _, _ => none
  | fuel + 1, doc, cs =>
    match skipSpace cs with
    | [] => some doc
    | c :: cs =>
      match newline? (c :: cs) with
      | some cs => lines? fuel doc cs
      | none => do
        let (doc, cs) ←
          if c == '#' then some (doc, c :: cs)
          else if c == '[' then header? doc (c :: cs)
          else pair? doc (c :: cs)
        let cs ← lineEnd? cs
        lines? fuel doc cs

/-- Reads a document; a byte order mark at its start does not count. -/
def parse? (text : String) : Option (List (String × Toml)) :=
  let cs := match text.toList with
    | '\uFEFF' :: cs => cs
    | cs => cs
  (lines? (cs.length + 1) ⟨.empty, []⟩ cs).map (·.root.finish)

end MutationTesting.Toml
