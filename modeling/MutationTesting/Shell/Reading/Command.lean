import MutationTesting.Shell.Reading.Word

/-!
# Reading commands

`Source.next?` reads the commands of the next lines of a script, by recursive descent.  What
comes after them is not looked at, so that commands run before a later flaw shows.
-/

namespace MutationTesting.Shell

open Reading

/-- Words that start or end a part of a compound command. -/
def keywords : List String := [
  "!", "case", "do", "done", "elif", "else", "esac", "fi", "for", "if", "in", "then", "until",
  "while", "\x7b", "\x7d"]

/-- A token in a place where keywords count. -/
def Token.asKeyword : Token → Token
  | .word parts (some text) =>
    if keywords.contains text then .keyword text else .word parts (some text)
  | t => t

/-- Whether a list of commands ends before a token. -/
def Token.endsList : Token → Bool
  | .stop | .sign ")" | .sign ";;" => true
  | .keyword text => ["do", "done", "elif", "else", "esac", "fi", "then", "\x7d"].contains text
  | _ => false

namespace Reading

def pushBack (t : Token) : Reading Unit := modify fun s => { s with pushed := some t }

/-- Reads a sign of one or more characters, given those that may follow the first one. -/
def sign (c : Char) (followers : List Char) : Reading String := do
  let _ ← takeChar
  match ← peekJoined with
  | some d =>
    if followers.contains d then
      let _ ← takeChar
      return String.ofList [c, d]
    else return String.ofList [c]
  | none => return String.ofList [c]

/-- Reads the sign of a redirection. -/
def redirection (stream : Option Nat) (c : Char) : Reading Token := do
  let first ← sign c (if c == '<' then ['<', '&', '>'] else ['>', '&', '|'])
  let text ← if first = "<<" && (← peekJoined) == some '-' then do
      let _ ← takeChar
      pure "<<-"
    else pure first
  return .redirect (stream.getD (if c == '<' then 0 else 1)) text

section

variable (commands : ReadCommands)

/-- Reads a token.  The fuel bounds the blanks before it. -/
def readToken : Nat → Reading Token
  | 0 => return .stop
  | fuel + 1 => do
    match ← peekJoined with
    | none => return .stop
    | some ' ' | some '\t' => do
      let _ ← takeChar
      readToken fuel
    | some '#' => do
      let _ ← takeWhile (· != '\n')
      readToken fuel
    | some '\n' => do
      let _ ← takeChar
      return .sign "\n"
    | some '(' => return .sign (← sign '(' [])
    | some ')' => return .sign (← sign ')' [])
    | some '&' => return .sign (← sign '&' ['&'])
    | some '|' => return .sign (← sign '|' ['|'])
    | some ';' => return .sign (← sign ';' [';'])
    | some '<' => redirection none '<'
    | some '>' => redirection none '>'
    | some _ => do
      let word ← Word.read commands
      match Word.plain? word, ← peek with
      | some text, some c =>
        match text.toList with
        | [d] =>
          if Word.isDigit d && (c == '<' || c == '>') then
            redirection (some (d.toNat - '0'.toNat)) c
          else return .word word (some text)
        | _ => return .word word (some text)
      | plain, _ => return .word word plain

/-- The next token. -/
def token : Reading Token := do
  let s ← get
  match s.pushed with
  | some t =>
    set { s with pushed := none }
    return t
  | none => readToken commands (← budget)

/-- The next token that is no end of a line; `n` bounds the number of those. -/
def tokenAfterLines : Nat → Reading Token
  | 0 => return .stop
  | n + 1 => do
    match ← token commands with
    | .sign "\n" => tokenAfterLines n
    | t => return t

/-- The next token, as a keyword if it is one. -/
def keyword (skipLines : Bool) : Reading Token := do
  if skipLines then return (← tokenAfterLines commands (← budget)).asKeyword
  else return (← token commands).asKeyword

/-- Takes a keyword off that must come next. -/
def expect (wanted : String) (skipLines : Bool) : Reading Unit := do
  match ← keyword commands skipLines with
  | .keyword text =>
    if text = wanted then return else unexpectedFor s!"\"{wanted}\"" (.keyword text)
  | t => unexpectedFor s!"\"{wanted}\"" t

/-! ### Redirections -/

/-- The rest of a line up to its end, which is not inside of quotes, and what follows. -/
def splitLine (quote : Option Char) : List Char → List Char × List Char
  | [] => ([], [])
  | '\\' :: c :: cs =>
    if quote == some '\x27' then
      let (line, rest) := splitLine quote (c :: cs)
      ('\\' :: line, rest)
    else
      let (line, rest) := splitLine quote cs
      ('\\' :: c :: line, rest)
  | c :: cs =>
    if c == '\n' && quote.isNone then (['\n'], cs)
    else
      let quote := match quote with
        | some q => if c == q then none else some q
        | none => if c == '"' || c == '\x27' then some c else none
      let (line, rest) := splitLine quote cs
      (c :: line, rest)

/-- The text up to a line that holds a mark, what follows that, and the number of lines.  The
fuel bounds that number. -/
def splitDocument (strip : Bool) (mark : List Char) : Nat → List Char → List Char × List Char × Nat
  | 0, _ | _, [] => ([], [], 0)
  | fuel + 1, cs =>
    let whole := cs.takeWhile (· != '\n')
    let line := if strip then whole.dropWhile (· == '\t') else whole
    let rest := cs.drop whole.length
    if line == mark then ([], rest.drop 1, 1)
    else
      let (body, after, n) := splitDocument strip mark fuel (rest.drop 1)
      (line ++ rest.take 1 ++ body, after, n + 1)

/-- Takes the text out that follows the current line. -/
def document (strip : Bool) (mark : Word) : Reading Word := do
  let (text, quoted) := Word.unexpanded mark
  let s ← get
  let (line, after) := splitLine none s.rest
  let (body, rest, n) := splitDocument strip text.toList (after.length + 1) after
  set { s with rest := line ++ rest, skipped := s.skipped + n }
  if quoted then return [.text (String.ofList body) true]
  else Word.readDocument commands body

/-- Reads what a redirection goes to. -/
def target (stream : Nat) (text : String) : Reading Redirect := do
  match ← token commands with
  | .word word _ =>
    match text with
    | "<" => return .input stream word
    | ">" => return .output stream word false
    | ">|" => return .output stream word true
    | ">>" => return .append stream word
    | "<>" => return .both stream word
    | "<<" => return .document stream (← document commands false word)
    | "<<-" => return .document stream (← document commands true word)
    | _ => return .duplicate stream word
  | t => unexpected t

/-- Reads the redirections after a compound command; `n` bounds their number. -/
def redirects : Nat → Reading (List Redirect)
  | 0 => return []
  | n + 1 => do
    match ← keyword commands false with
    | .redirect stream text => do
      let first ← target commands stream text
      return first :: (← redirects n)
    | t => do
      pushBack t
      return []

/-! ### Simple commands -/

/-- The parts of a text in which a tilde between colons or slashes stands for the home directory;
`fresh` says that the text starts after a colon, and `closed` that nothing follows it. -/
def textWithHome (closed : Bool) (fresh : Bool) : List Char → List Part
  | [] => []
  | c :: cs =>
    let rest := textWithHome closed (c == ':') cs
    let ends := match cs.head? with
      | none => closed
      | some d => d == '/' || d == ':'
    if c == '~' && fresh && ends then .home :: rest
    else match rest with
      | .text more false :: rest => .text (String.ofList (c :: more.toList)) false :: rest
      | rest => .text (String.ofList [c]) false :: rest

/-- The parts of a value in which tildes stand for the home directory. -/
def withHome (fresh : Bool) : List Part → List Part
  | [] => []
  | .text text false :: parts =>
    textWithHome parts.isEmpty fresh text.toList
      ++ withHome (text.toList.getLast? == some ':') parts
  | part :: parts => part :: withHome false parts

/-- A name and a value, if a word assigns one. -/
def assignment? : Word → Option (String × Word)
  | .text text false :: parts =>
    let name := text.toList.takeWhile isNameChar
    match text.toList.drop name.length with
    | '=' :: value =>
      if name.head?.any isNameStart then
        some (String.ofList name, withHome true (.text (String.ofList value) false :: parts))
      else none
    | _ => none
  | _ => none

/-- What a simple command consists of, in reverse order. -/
structure Parts where
  assignments : List (String × Word) := []
  words : List Word := []
  redirects : List Redirect := []

/-- Reads the rest of a simple command, or the body of a function; `n` bounds the number of
words. -/
def simple (body : Reading Command) (line : Nat) (parts : Parts) : Nat → Reading Command
  | 0 => fail "Syntax error: word unexpected"
  | n + 1 => do
    match ← token commands with
    | .word word plain =>
      match if parts.words.isEmpty then assignment? word else none with
      | some assignment =>
        simple body line { parts with assignments := assignment :: parts.assignments } n
      | none =>
        if parts.words.isEmpty && parts.assignments.isEmpty && parts.redirects.isEmpty then
          match ← token commands with
          | .sign "(" =>
            match ← token commands with
            | .sign ")" => pure ()
            | t => unexpectedFor "\")\"" t
            let name := plain.getD ""
            if !isName name || specialNames.contains name then
              fail "Syntax error: Bad function name"
            else
              let line := (← get).line
              return .define line name (← body)
          | t =>
            pushBack t
            simple body line { parts with words := word :: parts.words } n
        else simple body line { parts with words := word :: parts.words } n
    | .redirect stream text =>
      let redirect ← target commands stream text
      simple body line { parts with redirects := redirect :: parts.redirects } n
    | t =>
      pushBack t
      return .simple line parts.assignments.reverse parts.words.reverse parts.redirects.reverse

/-! ### Compound commands -/

/-- Reads the rest of a conditional after `if` or `elif`; `n` bounds the number of tests. -/
def conditional : Nat → Reading Command
  | 0 => fail "Syntax error: word unexpected"
  | n + 1 => do
    let test ← commands false
    expect commands "then" false
    let body ← commands false
    match ← keyword commands false with
    | .keyword "elif" => return .conditional test body [← conditional n]
    | .keyword "else" =>
      let otherwise ← commands false
      expect commands "fi" false
      return .conditional test body otherwise
    | .keyword "fi" => return .conditional test body []
    | t => unexpectedFor "\"fi\"" t

/-- Reads the words of a loop up to the end of the line; `n` bounds their number. -/
def loopWords : Nat → Reading (List Word)
  | 0 => return []
  | n + 1 => do
    match ← token commands with
    | .word word _ => return word :: (← loopWords n)
    | .sign "\n" | .sign ";" => return []
    | t => unexpected t

/-- Reads the rest of a loop over words. -/
def each (line : Nat) : Reading Command := do
  match ← token commands with
  | .word _ (some name) =>
    if !isName name then fail "Syntax error: Bad for loop variable"
    else
      let words ← match ← keyword commands true with
        | .keyword "in" => loopWords commands (← budget)
        | .sign ";" => pure [[.parameter "@" .value true]]
        | t => do
          pushBack t
          pure [[.parameter "@" .value true]]
      expect commands "do" true
      let body ← commands false
      expect commands "done" false
      return .each line name words body
  | _ => fail "Syntax error: Bad for loop variable"

/-- The word that a token is, if it can be one in a pattern. -/
def patternWord (t : Token) : Reading Word :=
  match t with
  | .word word _ => return word
  | .keyword text => return [.text text false]
  | t => unexpectedFor "word" t

/-- Reads the patterns of a branch from a token on, with bars between them; `n` bounds their
number. -/
def patterns : Nat → Token → Reading (List Word)
  | 0, t => unexpected t
  | n + 1, t => do
    let word ← patternWord t
    match ← token commands with
    | .sign "|" => return word :: (← patterns n (← token commands))
    | .sign ")" => return [word]
    | t => unexpectedFor "\")\"" t

/-- Reads the branches of a choice up to its end; `n` bounds their number. -/
def branches : Nat → Reading (List (List Word × List Command))
  | 0 => return []
  | n + 1 => do
    match ← keyword commands true with
    | .keyword "esac" => return []
    | t =>
      let t ← match t with
        | .sign "(" => token commands
        | t => pure t
      let words ← patterns commands (← budget) t
      let body ← commands true
      match ← keyword commands true with
      | .keyword "esac" => return [(words, body)]
      | .sign ";;" => return (words, body) :: (← branches n)
      | t => unexpectedFor "\";;\"" t

/-- Reads a command. -/
def readCommand : Nat → Bool → Reading Command
  | 0, _ => fail "Syntax error: word unexpected"
  | fuel + 1, skipLines => do
    let t ← keyword commands skipLines
    let line := (← get).line
    let finish (command : Command) : Reading Command := do
      let rs ← redirects commands (← budget)
      return if rs.isEmpty then command else .group line [command] rs
    match t with
    | .keyword "if" => do finish (← conditional commands (← budget))
    | .keyword "while" | .keyword "until" => do
      let test ← commands false
      expect commands "do" false
      let body ← commands false
      expect commands "done" false
      finish (.loop (t matches .keyword "while") test body)
    | .keyword "for" => do finish (← each commands line)
    | .keyword "case" => do
      match ← token commands with
      | .word word _ =>
        expect commands "in" true
        finish (.choice line word (← branches commands (← budget)))
      | t => unexpectedFor "word" t
    | .sign "(" => do
      let body ← commands false
      match ← keyword commands false with
      | .sign ")" => return .subshell line body (← redirects commands (← budget))
      | t => unexpectedFor "\")\"" t
    | .keyword "\x7b" => do
      let body ← commands false
      expect commands "\x7d" false
      return .group line body (← redirects commands (← budget))
    | .word _ _ | .redirect _ _ => do
      pushBack t
      simple commands (readCommand fuel true) line {} (← budget)
    | t => unexpected t

/-- Reads the stages of a pipeline after the first one; `n` bounds their number. -/
def stages : Nat → Reading (List Command)
  | 0 => return []
  | n + 1 => do
    match ← token commands with
    | .sign "|" => do
      let stage ← readCommand commands (← budget) true
      return stage :: (← stages n)
    | t => do
      pushBack t
      return []

/-- Commands that are joined by pipes. -/
def pipeline (skipLines : Bool) : Reading Command := do
  match ← keyword commands skipLines with
  | .keyword "!" => do
    let first ← readCommand commands (← budget) false
    return .negation (joined first (← stages commands (← budget)))
  | t => do
    pushBack t
    let first ← readCommand commands (← budget) false
    return joined first (← stages commands (← budget))
where
  joined (first : Command) (rest : List Command) : Command :=
    if rest.isEmpty then first else .pipeline (first :: rest)

/-- Reads pipelines with conditions between them after the first one; `n` bounds their
number. -/
def conditions (first : Command) : Nat → Reading Command
  | 0 => return first
  | n + 1 => do
    match ← token commands with
    | .sign "&&" => do conditions (.both first (← pipeline commands true)) n
    | .sign "||" => do conditions (.either first (← pipeline commands true)) n
    | t => do
      pushBack t
      return first

/-- Reads pipelines with conditions between them, and whether they go to the background. -/
def item : Reading (Command × Token) := do
  let command ← conditions commands (← pipeline commands false) (← budget)
  match ← token commands with
  | .sign "&" => return (.background command, .sign "&")
  | t => return (command, t)

/-- Reads commands up to a token that ends a list, which is put back; `n` bounds the number of
commands. -/
def compoundList : Nat → Bool → Reading (List Command)
  | 0, _ => return []
  | n + 1, mayEnd => do
    let t ← keyword commands true
    pushBack t
    if t matches .stop then return []
    else if mayEnd && t.endsList then return []
    else
      let (command, t) ← item commands
      match t with
      | .sign ";" | .sign "&" => return command :: (← compoundList n true)
      | .sign "\n" => return command :: (← compoundList n true)
      | t =>
        pushBack t
        return [command]

/-- Reads the commands of a line, which may go on on others; `n` bounds their number. -/
def lineOfCommands : Nat → Reading (List Command)
  | 0 => return []
  | n + 1 => do
    match ← keyword commands false with
    | .sign "\n" => return []
    | .stop => do
      pushBack .stop
      return []
    | t => do
      pushBack t
      let (command, t) ← item commands
      match t with
      | .sign ";" | .sign "&" => return command :: (← lineOfCommands n)
      | .sign "\n" => return [command]
      | .stop => do
        pushBack .stop
        return [command]
      | t => unexpected t

end

/-- Reads commands inside of others.  The fuel bounds the depth. -/
def commands : Nat → ReadCommands
  | 0, _ => fail "Syntax error: too deeply nested"
  | fuel + 1, mayEnd => do compoundList (commands fuel) (← budget) mayEnd

end Reading

namespace Source

/-- A whole script. -/
def ofText (text : List Char) : Source := { rest := text }

/-- The commands of the next lines, if there are more, and what is left. -/
def next? (s : Source) : Except SyntaxFlaw (Option (List Command) × Source) :=
  if s.rest.isEmpty then .ok (none, s)
  else
    let fuel := s.rest.length + 1
    (do return some (← Reading.lineOfCommands (Reading.commands fuel) fuel) : Reading _).run
      { s with pushed := none }

end Source

end MutationTesting.Shell
