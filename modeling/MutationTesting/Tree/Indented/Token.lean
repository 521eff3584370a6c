import MutationTesting.Tree

/-!
# Tokens of indented sources

`lex` cuts a Python source into tokens.  Indentation shows as tokens of its own, which open
and close blocks; line ends count only outside brackets.  A comment between statements is a
token, while one in the middle of a statement is set aside as an extra, like a line that is
continued.
-/

namespace MutationTesting.Indented

/-- What a token is. -/
inductive TokenKind where
  | word
  | integer
  | float
  | literal
  | symbol
  | comment
  | newline
  | indent
  | dedent
  deriving DecidableEq, Repr

/-- A piece of a text, with its bytes from `start` up to `stop`. -/
structure Token where
  kind : TokenKind
  text : String
  start : Nat
  stop : Nat
  deriving Repr

/-- A node without children. -/
def leaf (kind : String) (named : Bool) (start stop : Nat) : SyntaxNode :=
  .mk { kind := kind, named := named, hasError := false, isError := false, isMissing := false
        start := start, stop := stop, fields := [] } []

/-! ### Single tokens -/

def isWordStart (c : Char) : Bool :=
  ('a' ≤ c && c ≤ 'z') || ('A' ≤ c && c ≤ 'Z') || c == '_' || 0x80 ≤ c.toNat

def isDigit (c : Char) : Bool := '0' ≤ c && c ≤ '9'

def isWordPart (c : Char) : Bool := isWordStart c || isDigit c

/-- The letters that can stand before the quotes of a literal. -/
def isMark (c : Char) : Bool := "rRbBuUfF".toList.contains c

/-- The quotes that a text starts with. -/
def quotes? : List Char → Option (List Char)
  | '"' :: '"' :: '"' :: _ => some ['"', '"', '"']
  | '\x27' :: '\x27' :: '\x27' :: _ => some ['\x27', '\x27', '\x27']
  | '"' :: _ => some ['"']
  | '\x27' :: _ => some ['\x27']
  | _ => none

/-- The marks and the opening quotes of a literal. -/
def opening? (cs : List Char) : Option (List Char × List Char) :=
  let marks := cs.takeWhile isMark
  if 2 < marks.length then none else (quotes? (cs.dropWhile isMark)).map (marks, ·)

/-- How many characters it takes to the end of a literal with these quotes. -/
def closing? (quotes : List Char) : List Char → Option Nat
  | [] => none
  | '\\' :: _ :: cs => (closing? quotes cs).map (· + 2)
  | c :: cs =>
    if quotes.isPrefixOf (c :: cs) then some quotes.length
    else if c = '\n' && quotes.length = 1 then none
    else (closing? quotes cs).map (· + 1)

/-- The number of characters of a literal. -/
def literalLength? (cs : List Char) : Option Nat := do
  let (marks, quotes) ← opening? cs
  let rest ← closing? quotes (cs.drop (marks.length + quotes.length))
  return marks.length + quotes.length + rest

/-- The digits at the start of a text, which underscores may group. -/
def digits (cs : List Char) : List Char := cs.takeWhile fun c => isDigit c || c == '_'

/-- The exponent at the start of a text, if there is one. -/
def exponent : List Char → List Char
  | e :: sign :: c :: cs =>
    if e ≠ 'e' && e ≠ 'E' then []
    else if isDigit sign then e :: digits (sign :: c :: cs)
    else if (sign = '+' || sign = '-') && isDigit c then e :: sign :: digits (c :: cs)
    else []
  | [e, c] => if (e = 'e' || e = 'E') && isDigit c then [e, c] else []
  | _ => []

/-- A point with the digits after it. -/
def fraction : List Char → List Char
  | '.' :: cs => '.' :: digits cs
  | _ => []

/-- The kind and the number of characters of a number. -/
def numberLength (cs : List Char) : TokenKind × Nat :=
  match cs with
  | '0' :: c :: _ =>
    if "xXoObB".toList.contains c then (.integer, (cs.takeWhile isWordPart).length)
    else decimal
  | _ => decimal
where
  decimal : TokenKind × Nat :=
    let whole := digits cs
    let tail := fraction (cs.drop whole.length)
    let power := exponent (cs.drop (whole.length + tail.length))
    let length := whole.length + tail.length + power.length
    let suffix := match cs.drop length with
      | c :: _ => if "jJlL".toList.contains c then 1 else 0
      | [] => 0
    (if tail.isEmpty && power.isEmpty then .integer else .float, length + suffix)

/-- The symbols of more than one character, longer ones first. -/
def longSymbols : List String := [
  "**=", "//=", ">>=", "<<=", "...", "!=", "==", "<=", ">=", "->", ":=", "**", "//", "<<", ">>",
  "+=", "-=", "*=", "/=", "%=", "&=", "|=", "^=", "@=", "<>"]

def symbolLength (cs : List Char) : Nat :=
  ((longSymbols.find? fun symbol => symbol.toList.isPrefixOf cs).map (·.length)).getD 1

/-- The kind and the number of characters of the token that a text starts with. -/
def nextToken (cs : List Char) : TokenKind × Nat :=
  match literalLength? cs with
  | some length => (.literal, length)
  | none =>
    match cs with
    | [] => (.symbol, 0)
    | c :: rest =>
      if isDigit c || (c = '.' && rest.head?.any isDigit) then numberLength cs
      else if isWordStart c then (.word, (cs.takeWhile isWordPart).length)
      else (.symbol, symbolLength cs)

/-! ### Layout -/

/-- The blanks within a line. -/
def isSpace (c : Char) : Bool := c == ' ' || c == '\t' || c == '\r' || c == '\x0c'

/-- How far a line is indented by these blanks. -/
def width (blanks : List Char) : Nat :=
  blanks.foldl (fun n c => if c = ' ' then n + 1 else if c = '\t' then n + 8 else 0) 0

/-- The lines of a text. -/
def lines (cs : List Char) : List (List Char) := cs.splitOn '\n'

/-- How far the next line with code is indented; the end of the text is not. -/
def nextWidth (cs : List Char) : Nat :=
  let hasCode (line : List Char) : Bool :=
    match line.dropWhile isSpace with
    | [] | '#' :: _ => false
    | _ => true
  (((lines cs).find? hasCode).map fun line => width (line.takeWhile isSpace)).getD 0

/-- How far the lexer has come. -/
structure Lexer where
  tokens : List Token
  extras : List SyntaxNode
  offset : Nat
  /-- The number of brackets that are open. -/
  depth : Nat
  /-- How far the open blocks are indented, the innermost first. -/
  blocks : List Nat
  /-- Whether a line begins here. -/
  fresh : Bool

namespace Lexer

def start : Lexer := ⟨[], [], 0, 0, [], true⟩

/-- How far the innermost block is indented. -/
def indentation (l : Lexer) : Nat := l.blocks.headD 0

/-- Whether no token of a statement stands on the line so far. -/
def isBlank (l : Lexer) : Bool :=
  match l.tokens with
  | [] => true
  | t :: _ => [TokenKind.newline, .indent, .dedent, .comment].contains t.kind

/-- Where the last token ends. -/
def lastStop (l : Lexer) : Nat := (l.tokens.head?.map (·.stop)).getD 0

/-- Adds a token of no width. -/
def mark (l : Lexer) (kind : TokenKind) : Lexer :=
  { l with tokens := ⟨kind, "", l.lastStop, l.lastStop⟩ :: l.tokens }

/-- Goes over some characters. -/
def skip (l : Lexer) (cs : List Char) : Lexer := { l with offset := l.offset + Text.byteLength cs }

/-- Adds a token with these characters. -/
def add (l : Lexer) (kind : TokenKind) (cs : List Char) : Lexer :=
  let next := l.skip cs
  { next with tokens := ⟨kind, String.ofList cs, l.offset, next.offset⟩ :: l.tokens }

/-- Sets a node with these characters aside. -/
def setAside (l : Lexer) (kind : String) (cs : List Char) : Lexer :=
  let next := l.skip cs
  { next with extras := leaf kind true l.offset next.offset :: l.extras }

/-- Closes the blocks that are indented further than the line with code that follows, except
those that a comment before it still belongs to. -/
def close (l : Lexer) (code comment : Nat) : Lexer :=
  let rest := l.blocks.dropWhile fun block => code < block && comment < block
  let closed := l.blocks.length - rest.length
  { (List.range closed).foldl (fun l _ => l.mark .dedent) l with blocks := rest }

/-- Opens a block if the line with code that follows is indented further, and closes those
that end. -/
def arrange (l : Lexer) (code comment : Nat) : Lexer :=
  if l.indentation < code then { l.mark .indent with blocks := code :: l.blocks }
  else l.close code comment

/-- The brackets that are open after a symbol. -/
def track (l : Lexer) (symbol : List Char) : Lexer :=
  match symbol with
  | ['('] | ['['] | ['\x7b'] => { l with depth := l.depth + 1 }
  | [')'] | [']'] | ['\x7d'] => { l with depth := l.depth - 1 }
  | _ => l

/-- Ends the last line and all blocks. -/
def finish (l : Lexer) : Lexer :=
  let l := if l.fresh then l else l.mark .newline
  l.close 0 0

/-- Goes over the blanks at the start of a line and finds out which blocks begin or end. -/
def beginLine (l : Lexer) (cs : List Char) : Lexer :=
  let blanks := cs.takeWhile isSpace
  let rest := cs.drop blanks.length
  let l := l.skip blanks
  match rest with
  | [] | '\n' :: _ => { l with fresh := true }
  | '#' :: _ => { l.arrange (nextWidth rest) (width blanks) with fresh := false }
  | _ => { l.arrange (width blanks) 0 with fresh := false }

end Lexer

/-- The rest of a line. -/
def restOfLine (cs : List Char) : List Char := cs.takeWhile (· != '\n')

/-- Cuts a source into tokens.  The fuel bounds the number of characters. -/
def lexFrom : Nat → Lexer → List Char → Option Lexer
  | 0, l, cs => if cs.isEmpty then some l.finish else none
  | _ + 1, l, [] => some l.finish
  | fuel + 1, l, c :: cs =>
    if l.fresh && isSpace c then
      let blanks := (c :: cs).takeWhile isSpace
      lexFrom fuel (l.beginLine (c :: cs)) (cs.drop (blanks.length - 1))
    else if c = '\n' then
      let l := if l.fresh || 0 < l.depth then l else { l.mark .newline with fresh := true }
      lexFrom fuel (l.skip [c]) cs
    else if l.fresh then lexFrom fuel (l.beginLine (c :: cs)) (c :: cs)
    else if isSpace c then lexFrom fuel (l.skip [c]) cs
    else if c = '#' then
      let comment := ((restOfLine (c :: cs)).reverse.dropWhile (· == '\r')).reverse
      let next :=
        if 0 < l.depth then l.setAside "comment" comment
        else { l.add .comment comment with fresh := l.isBlank }
      lexFrom fuel next (cs.drop (comment.length - 1))
    else match c, cs with
      | '\\', '\n' :: cs => lexFrom fuel (l.setAside "line_continuation" ['\\', '\n']) cs
      | '\\', '\r' :: '\n' :: cs =>
        lexFrom fuel (l.setAside "line_continuation" ['\\', '\r', '\n']) cs
      | _, _ =>
        let (kind, length) := nextToken (c :: cs)
        let text := (c :: cs).take length
        let l := (l.add kind text).track (if kind = .symbol then text else [])
        lexFrom fuel l (cs.drop (length - 1))

/-- The tokens of a source, with what was set aside. -/
def lex (offset : Nat) (depth : Nat) (cs : List Char) : Option (List Token × List SyntaxNode) :=
  let start := { Lexer.start with offset := offset, depth := depth, fresh := depth = 0 }
  (lexFrom (2 * cs.length + 1) start cs).map fun l => (l.tokens.reverse, l.extras.reverse)

end MutationTesting.Indented
