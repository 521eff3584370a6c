import MutationTesting.Shell.Arithmetic
import MutationTesting.Decimal.Fixed

/-!
# Tokens of rules

`tokens` parts a program into names, numbers, texts, regular expressions and signs.  A slash
starts a regular expression where no operand stands before it.
-/

namespace MutationTesting.Shell.Rules

/-- A piece of a program. -/
inductive Token where
  | number (f : Float)
  | text (s : String)
  | regex (s : String)
  | name (s : String)
  /-- A name with an opening parenthesis right after it. -/
  | callee (s : String)
  | builtin (s : String)
  | keyword (s : String)
  | sign (s : String)
  | newline
  | stop

/-- What a message calls a token. -/
def Token.shown : Token → String
  | .number f => Decimal.general 6 false f
  | .text s => s!"\"{s}\""
  | .regex s => s!"/{s}/"
  | .name s | .callee s | .builtin s | .keyword s | .sign s => s
  | .newline => "end of line"
  | .stop => "end of file"

/-- The words that are no names. -/
def keywords : List String := [
  "BEGIN", "END", "if", "else", "while", "for", "do", "break", "continue", "next", "exit",
  "return", "delete", "in", "getline", "print", "printf", "function", "func", "nextfile"]

/-- The functions that every program has. -/
def builtins : List String := [
  "length", "substr", "index", "split", "sub", "gsub", "match", "sprintf", "sin", "cos", "atan2",
  "exp", "log", "sqrt", "int", "rand", "srand", "tolower", "toupper", "system", "close", "fflush",
  "systime"]

/-- Signs, each before those that it starts with. -/
def tokenSigns : List String := [
  "**=", "&&", "||", "++", "--", "+=", "-=", "*=", "/=", "%=", "^=", "**", "==", "<=", ">=", "!=",
  "!~", ">>", "\x7b", "\x7d", "(", ")", "[", "]", ";", ",", "+", "-", "*", "/", "%", "^", "!", ">",
  "<", "|", "?", ":", "~", "$", "="]

/-- Whether a division can follow a token. -/
def Token.endsOperand : Token → Bool
  | .number _ | .text _ | .regex _ | .name _ | .builtin _ => true
  | .sign s => [")", "]", "$", "++", "--"].contains s
  | _ => false

/-- The character of an escape in a text after its backslash, and what follows it. -/
def textEscape (cs : List Char) : List Char × List Char :=
  match cs with
  | [] => (['\\'], [])
  | '"' :: rest => (['"'], rest)
  | '/' :: rest => (['/'], rest)
  | '\n' :: rest => ([], rest)
  | c :: rest =>
    if '0' ≤ c && c ≤ '7' then
      let digits := (cs.take 3).takeWhile fun d => '0' ≤ d && d ≤ '7'
      let n := digits.foldl (fun n d => 8 * n + (d.toNat - '0'.toNat)) 0
      ([Char.ofNat (n % 256)], cs.drop digits.length)
    else match [('n', '\n'), ('t', '\t'), ('r', '\r'), ('a', '\x07'), ('b', '\x08'),
        ('f', '\x0c'), ('v', '\x0b'), ('\\', '\\')].lookup c with
      | some d => ([d], rest)
      | none => (['\\', c], rest)

/-- Reads a text up to its closing quote.  The fuel bounds the number of characters. -/
def textBody : Nat → List Char → List Char → Option (List Char × List Char)
  | 0, _, _ | _, _, [] => none
  | _ + 1, done, '"' :: cs => some (done.reverse, cs)
  | fuel + 1, done, '\\' :: cs =>
    let (chars, rest) := textEscape cs
    textBody fuel (chars.reverse ++ done) rest
  | fuel + 1, done, c :: cs => if c == '\n' then none else textBody fuel (c :: done) cs

/-- Takes the escapes of a text for what they mean. -/
def unescapeText : Nat → List Char → List Char
  | 0, _ | _, [] => []
  | fuel + 1, '\\' :: cs =>
    let (chars, rest) := textEscape cs
    chars ++ unescapeText fuel rest
  | fuel + 1, c :: cs => c :: unescapeText fuel cs

/-- Reads a regular expression up to its closing slash. -/
def regexBody (inBrackets : Bool) : List Char → Option (List Char × List Char)
  | [] => none
  | '\\' :: '/' :: cs => (regexBody inBrackets cs).map fun (s, rest) => ('/' :: s, rest)
  | '\\' :: c :: cs => (regexBody inBrackets cs).map fun (s, rest) => ('\\' :: c :: s, rest)
  | c :: cs =>
    if c == '/' && !inBrackets then some ([], cs)
    else if c == '\n' then none
    else
      let inside := if c == '[' then true else if c == ']' then false else inBrackets
      (regexBody inside cs).map fun (s, rest) => (c :: s, rest)

/-- A token with the line that it stands on. -/
abbrev Placed := Token × Nat

/-- The tokens of a program, given the one before.  The fuel bounds their number. -/
def tokensFrom : Nat → Nat → Token → List Char → Except (Nat × String) (List Placed)
  | 0, line, _, _ | _, line, _, [] => .ok [(.stop, line)]
  | fuel + 1, line, before, c :: cs => do
    if c == ' ' || c == '\t' || c == '\r' then tokensFrom fuel line before cs
    else if c == '\n' then return (.newline, line) :: (← tokensFrom fuel (line + 1) .newline cs)
    else if c == '#' then tokensFrom fuel line before (cs.dropWhile (· != '\n'))
    else if c == '\\' && cs.head? == some '\n' then tokensFrom fuel (line + 1) before (cs.drop 1)
    else if c == '"' then
      match textBody (cs.length + 1) [] cs with
      | some (s, rest) =>
        let t := Token.text (String.ofList s)
        return (t, line) :: (← tokensFrom fuel line t rest)
      | none =>
        let shown := String.ofList (cs.takeWhile (· != '\n'))
        .error (line, s!"runaway string constant \"{shown} ...")
    else if Text.isDigit c || (c == '.' && cs.head?.any Text.isDigit) then
      match Decimal.float? (c :: cs) with
      | some (f, rest) => return (.number f, line) :: (← tokensFrom fuel line (.number f) rest)
      | none => .error (line, "")
    else if isNameStart c then
      let word := (c :: cs).takeWhile isNameChar
      let rest := (c :: cs).drop word.length
      let name := String.ofList word
      let t := if keywords.contains name then Token.keyword name
        else if builtins.contains name then .builtin name
        else if rest.head? == some '(' then .callee name
        else .name name
      return (t, line) :: (← tokensFrom fuel line t rest)
    else if c == '/' && !before.endsOperand then
      match regexBody false cs with
      | some (s, rest) =>
        let t := Token.regex (String.ofList s)
        return (t, line) :: (← tokensFrom fuel line t rest)
      | none =>
        let shown := String.ofList (cs.takeWhile (· != '\n'))
        .error (line, s!"runaway regular expression /{shown} ...")
    else match tokenSigns.find? fun s => s.toList.isPrefixOf (c :: cs) with
      | some s =>
        let rest := (c :: cs).drop s.length
        let t := Token.sign (if s = "**" then "^" else if s = "**=" then "^=" else s)
        return (t, line) :: (← tokensFrom fuel line t rest)
      | none => .error (line, s!"unexpected character '{String.ofList [c]}'")

/-- The tokens of a program. -/
def tokens (text : String) : Except (Nat × String) (List Placed) :=
  tokensFrom (text.length + 1) 1 .newline text.toList

end MutationTesting.Shell.Rules
