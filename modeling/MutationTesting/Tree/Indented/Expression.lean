import MutationTesting.Tree.Indented.Reading

/-!
# Expressions of indented sources

Each level of precedence is a reading of its own.  The fuel of a reading bounds how deep
expressions are nested.
-/

namespace MutationTesting.Indented

open Reading

/-! ### Literals -/

def isHexDigit (c : Char) : Bool :=
  isDigit c || ('a' ≤ c && c ≤ 'f') || ('A' ≤ c && c ≤ 'F')

def isOctalDigit (c : Char) : Bool := '0' ≤ c && c ≤ '7'

/-- The number of characters of the escape that a text starts with; none if it is no escape. -/
def escapeLength? : List Char → Option Nat
  | '\\' :: '\r' :: '\n' :: _ => some 3
  | '\\' :: c :: cs =>
    let digits := cs.takeWhile isHexDigit
    let exactly (n : Nat) : Option Nat := if n ≤ digits.length then some (n + 2) else none
    if c = 'u' then exactly 4
    else if c = 'U' then exactly 8
    else if c = 'x' then exactly 2
    else if isOctalDigit c then some (1 + ((c :: cs).takeWhile isOctalDigit |>.take 3).length)
    else if "\n\\\"abfrntv".toList.contains c || c = '\x27' then some 2
    else none
  | _ => none

/-- The escapes in a text that starts at an offset. -/
def escapes : Nat → Nat → List Char → List SyntaxNode
  | 0, _, _ => []
  | _ + 1, _, [] => []
  | fuel + 1, offset, c :: cs =>
    match escapeLength? (c :: cs) with
    | some length =>
      let text := (c :: cs).take length
      let stop := offset + Text.byteLength text
      leaf "escape_sequence" true offset stop :: escapes fuel stop (cs.drop (length - 1))
    | none =>
      match c, cs with
      | '\\', d :: cs => escapes fuel (offset + Text.byteLength [c, d]) cs
      | _, _ => escapes fuel (offset + Text.byteLength [c]) cs

/-- The content of a literal between its quotes or interpolations; none if it is empty. -/
def content (raw : Bool) (offset : Nat) (cs : List Char) : List SyntaxNode :=
  if cs.isEmpty then []
  else
    let l := leaf "string_content" true offset (offset + Text.byteLength cs)
    [.mk l.info (if raw then [] else escapes (cs.length + 1) offset cs)]

/-- A part of a literal: plain content, or an interpolation without its braces. -/
inductive Piece where
  | plain (offset : Nat) (text : List Char)
  | interpolation (offset : Nat) (text : List Char)

/-- The text up to the brace that closes an interpolation, if it is closed. -/
def interpolated? : Nat → List Char → Option (List Char)
  | _, [] => none
  | depth, c :: cs =>
    if c = '\x7d' then
      if depth = 0 then some [] else (interpolated? (depth - 1) cs).map (c :: ·)
    else if c = '\x7b' then (interpolated? (depth + 1) cs).map (c :: ·)
    else (interpolated? depth cs).map (c :: ·)

/-- Parts a literal with interpolations into pieces; `before` is the plain content so far,
the last character first, and begins at `start`. -/
def pieces? : Nat → Nat → List Char → List Char → Option (List Piece)
  | 0, _, _, _ => none
  | _ + 1, start, before, [] => some [.plain start before.reverse]
  | fuel + 1, start, before, c :: cs =>
    match c, cs with
    | '\x7b', '\x7b' :: cs => pieces? fuel start ('\x7b' :: '\x7b' :: before) cs
    | '\x7d', '\x7d' :: cs => pieces? fuel start ('\x7d' :: '\x7d' :: before) cs
    | '\x7b', _ => do
      let text ← interpolated? 0 cs
      let inner := start + Text.byteLength before + 1
      let rest ← pieces? fuel (inner + Text.byteLength text + 1) [] (cs.drop (text.length + 1))
      return .plain start before.reverse :: .interpolation inner text :: rest
    | _, _ => pieces? fuel start (c :: before) cs

/-- The number of characters of an interpolation up to its conversion or its format; what is
in brackets or quotes is passed over. -/
def valueLength (depth : Nat) (quote : Option Char) : List Char → Nat
  | [] => 0
  | c :: cs =>
    match quote with
    | some q => 1 + valueLength depth (if c = q then none else quote) cs
    | none =>
      if depth = 0 && (c = ':' || (c = '!' && cs.head? != some '=')) then 0
      else
        let depth :=
          if ['(', '[', '\x7b'].contains c then depth + 1
          else if [')', ']', '\x7d'].contains c then depth - 1
          else depth
        1 + valueLength depth (if c = '"' || c = '\x27' then some c else none) cs

/-- The conversion and the format of an interpolation. -/
def formatting (offset : Nat) (cs : List Char) : List SyntaxNode :=
  let conversion := if cs.head? = some '!' then cs.takeWhile (· != ':') else []
  let middle := offset + Text.byteLength conversion
  let stop := offset + Text.byteLength cs
  let converted :=
    if conversion.isEmpty then [] else [leaf "type_conversion" true offset middle]
  let formatted :=
    if middle = stop then []
    else [.mk (leaf "format_specifier" true middle stop).info [leaf ":" false middle (middle + 1)]]
  converted ++ formatted

/-! ### Levels of precedence -/

/-- The operators of binary expressions, from those that bind least. -/
def binaryLevels : List (List String) :=
  [["|"], ["&"], ["^"], ["<<", ">>"], ["+", "-"], ["*", "@", "/", "%", "//"]]

/-- Takes an operator of comparison, which may be two words. -/
def comparator? : Reading (Option SyntaxNode) := do
  match ← acceptAny ["<", "<=", "==", "!=", ">=", ">", "<>", "in"] with
  | some n => return some n
  | none =>
    match ← accept "is" with
    | some is_ =>
      match ← accept "not" with
      | some not_ => return some (pair "is not" is_ not_)
      | none => return some is_
    | none =>
      match ← get with
      | first :: second :: _ =>
        if first.kind = .word && first.text = "not" && second.kind = .word && second.text = "in"
        then
          let not_ ← expect "not"
          let in_ ← expect "in"
          return some (pair "not in" not_ in_)
        else return none
      | _ => return none
where
  pair (kind : String) (a b : SyntaxNode) : SyntaxNode :=
    .mk { (leaf kind false a.info.start b.info.stop).info with kind := kind } [a, b]

/-- Makes a list out of expressions that stand alone, if there are more than one. -/
def grouped (kind : String) (items : List SyntaxNode) : SyntaxNode :=
  match items with
  | [item] => item
  | items => node kind items

/-- The tree of a piece of a literal, given how the value of an interpolation is read. -/
def pieceWith (value? : List Token → Option (List SyntaxNode)) : Piece → Option (List SyntaxNode)
  | .plain offset text => some (content false offset text)
  | .interpolation offset text => do
    let length := valueLength 0 none text
    let (tokens, _) ← lex offset 1 (text.take length)
    let value ← value? (tokens.filter (·.kind != .newline))
    let middle := offset + Text.byteLength (text.take length)
    let stop := offset + Text.byteLength text
    return [node "interpolation"
      ([leaf "\x7b" false (offset - 1) offset] ++ value ++ formatting middle (text.drop length)
        ++ [leaf "\x7d" false stop (stop + 1)])]

/-- The tree of a literal, given how the value of an interpolation is read. -/
def literalWith (value? : List Token → Option (List SyntaxNode)) (t : Token) :
    Option SyntaxNode := do
  let cs := t.text.toList
  let (marks, quotes) ← opening? cs
  let head := marks.length + quotes.length
  let inner := (cs.drop head).take (cs.length - head - quotes.length)
  let raw := marks.any fun c => c = 'r' || c = 'R'
  let formatted := marks.any fun c => c = 'f' || c = 'F'
  let parts ←
    if formatted then do
      let found ← pieces? (inner.length + 1) (t.start + head) [] inner
      some (← found.mapM (pieceWith value?)).flatten
    else some (content raw (t.start + head) inner)
  return node "string"
    ([leaf "string_start" true t.start (t.start + head)] ++ parts
      ++ [leaf "string_end" true (t.stop - quotes.length) t.stop])

mutual

/-- Reads a conditional expression, a function without a name, or what binds tighter. -/
def expression : Nat → Reading SyntaxNode
  | 0 => failure
  | fuel + 1 => do
    match ← accept "lambda" with
    | some lambda =>
      let parameters ← if ← isNext ":" then pure []
        else pure [node "lambda_parameters" (← separated (parameter fuel false) fuel)]
      let colon ← expect ":"
      return node "lambda" ([lambda] ++ parameters ++ [colon, ← expression fuel])
    | none =>
      let value ← disjunction fuel
      match ← accept ":=" with
      | some symbol =>
        return node "named_expression" [
          filling .name value, symbol, filling .value (← expression fuel)]
      | none =>
        match ← accept "if" with
        | none => return value
        | some if_ =>
          let test ← disjunction fuel
          let else_ ← expect "else"
          return node "conditional_expression" [value, if_, test, else_, ← expression fuel]

def disjunction : Nat → Reading SyntaxNode
  | 0 => failure
  | fuel + 1 => do
    chain (conjunction fuel) ["or"] "boolean_operator" fuel (← conjunction fuel)

def conjunction : Nat → Reading SyntaxNode
  | 0 => failure
  | fuel + 1 => do
    chain (inversion fuel) ["and"] "boolean_operator" fuel (← inversion fuel)

def inversion : Nat → Reading SyntaxNode
  | 0 => failure
  | fuel + 1 => do
    match ← accept "not" with
    | some not_ => return node "not_operator" [not_, ← inversion fuel]
    | none =>
      let first ← operation fuel binaryLevels
      match ← comparisons fuel fuel with
      | [] => return first
      | rest => return node "comparison_operator" (first :: rest)

/-- Reads operators of comparison, each with its right operand. -/
def comparisons : Nat → Nat → Reading (List SyntaxNode)
  | 0, _ | _, 0 => return []
  | fuel + 1, count + 1 => do
    match ← comparator? with
    | none => return []
    | some operator =>
      let right ← operation fuel binaryLevels
      return operator :: right :: (← comparisons fuel count)

/-- Reads a binary expression of these levels. -/
def operation : Nat → List (List String) → Reading SyntaxNode
  | 0, _ => failure
  | fuel + 1, [] => unary fuel
  | fuel + 1, operators :: levels => do
    chain (operation fuel levels) operators "binary_operator" fuel (← operation fuel levels)

def unary : Nat → Reading SyntaxNode
  | 0 => failure
  | fuel + 1 => do
    match ← acceptAny ["+", "-", "~"] with
    | some operator => return node "unary_operator" [operator, ← unary fuel]
    | none =>
      let base ← match ← accept "await" with
        | some await => do pure (node "await" [await, ← primary fuel])
        | none => primary fuel
      match ← accept "**" with
      | some operator =>
        return node "binary_operator" [
          filling .left base, operator, filling .right (← unary fuel)]
      | none => return base

/-- Reads an atom with the calls, attributes and subscripts after it. -/
def primary : Nat → Reading SyntaxNode
  | 0 => failure
  | fuel + 1 => do trailers fuel fuel (← atom fuel)

def trailers : Nat → Nat → SyntaxNode → Reading SyntaxNode
  | 0, _, n | _, 0, n => return n
  | fuel + 1, count + 1, n => do
    match ← accept "." with
    | some dot => trailers fuel count (node "attribute" [n, dot, ← identifier])
    | none =>
      if ← isNext "(" then trailers fuel count (node "call" [n, ← arguments fuel])
      else
        match ← accept "[" with
        | some opened =>
          let items ← separated (subscript fuel) fuel
          let closed ← expect "]"
          trailers fuel count (node "subscript" ([filling .value n, opened] ++ items ++ [closed]))
        | none => return n

/-- Reads a subscript or a slice. -/
def subscript : Nat → Reading SyntaxNode
  | 0 => failure
  | fuel + 1 => do
    let first ← sliceEnd fuel
    match ← accept ":" with
    | none => match first with
      | [item] => return item
      | _ => failure
    | some colon =>
      let second ← sliceEnd fuel
      let third ← match ← accept ":" with
        | none => pure []
        | some colon => do pure (colon :: (← sliceEnd fuel))
      return node "slice" (first ++ [colon] ++ second ++ third)

/-- Reads an end of a slice, which may be left out. -/
def sliceEnd : Nat → Reading (List SyntaxNode)
  | 0 => failure
  | fuel + 1 => do
    if (← isNext ":") || (← isNext "]") || (← isNext ",") then return []
    else return [← expression fuel]

/-- Reads the arguments of a call. -/
def arguments : Nat → Reading SyntaxNode
  | 0 => failure
  | fuel + 1 => do
    let opened ← expect "("
    if ← isNext ")" then return node "argument_list" [opened, ← expect ")"]
    let items ← separated (argument fuel) fuel
    let clauses ← clauses fuel fuel
    let closed ← expect ")"
    let kind := if clauses.isEmpty then "argument_list" else "generator_expression"
    return node kind ([opened] ++ items ++ clauses ++ [closed])

def argument : Nat → Reading SyntaxNode
  | 0 => failure
  | fuel + 1 => do
    match ← accept "**" with
    | some stars => return node "dictionary_splat" [stars, ← expression fuel]
    | none =>
      let value ← element fuel
      if value.kind = "identifier" then
        match ← accept "=" with
        | some equals =>
          return node "keyword_argument" [
            filling .name value, equals, filling .value (← expression fuel)]
        | none => return value
      else return value

/-- Reads an element of a list, which may stand for several. -/
def element : Nat → Reading SyntaxNode
  | 0 => failure
  | fuel + 1 => do
    match ← accept "*" with
    | some star => return node "list_splat" [star, ← expression fuel]
    | none => expression fuel

/-- Reads the clauses of a comprehension; the first one says over what it goes. -/
def clauses : Nat → Nat → Reading (List SyntaxNode)
  | 0, _ | _, 0 => return []
  | fuel + 1, count + 1 => do
    if (← isNext "for") || (← isNext "async") then
      let async_ ← accept "async"
      let for_ ← expect "for"
      let left ← targets fuel
      let in_ ← expect "in"
      let right ← disjunction fuel
      let clause := node "for_in_clause"
        (async_.toList ++ [for_, filling .left left, in_, filling .right right])
      return clause :: (← clauses fuel count)
    else
      match ← accept "if" with
      | some if_ =>
        let clause := node "if_clause" [if_, ← disjunction fuel]
        return clause :: (← clauses fuel count)
      | none => return []

/-- Reads the targets of a loop. -/
def targets : Nat → Reading SyntaxNode
  | 0 => failure
  | fuel + 1 => do
    return grouped "pattern_list" (← separated (operation fuel binaryLevels) fuel)

/-- Reads a parameter of a function; types are for functions with a name. -/
def parameter : Nat → Bool → Reading SyntaxNode
  | 0, _ => failure
  | fuel + 1, typed => do
    match ← acceptAny ["**", "*", "/"] with
    | some mark =>
      if mark.kind = "/" then return node "positional_separator" [mark]
      else if (← isNext ",") || (← isNext ")") || (← isNext ":") then
        return node "keyword_separator" [mark]
      else
        let kind := if mark.kind = "*" then "list_splat_pattern" else "dictionary_splat_pattern"
        let pattern := node kind [mark, ← identifier]
        return grouped "typed_parameter" (pattern :: (← typeHint fuel typed))
    | none =>
      let name ← identifier
      let type ← typeHint fuel typed
      match ← accept "=" with
      | none => return grouped "typed_parameter" (name :: type)
      | some equals =>
        let value := filling .value (← expression fuel)
        return node (if type.isEmpty then "default_parameter" else "typed_default_parameter")
          ([filling .name name] ++ type ++ [equals, value])

/-- Reads the type of a parameter, if it has one. -/
def typeHint : Nat → Bool → Reading (List SyntaxNode)
  | 0, _ => return []
  | fuel + 1, typed => do
    if !typed then return []
    match ← accept ":" with
    | none => return []
    | some colon => return [colon, node "type" [← expression fuel]]

/-- Reads what is enclosed by brackets, or a single token. -/
def atom : Nat → Reading SyntaxNode
  | 0 => failure
  | fuel + 1 => do
    match ← next? with
    | none => failure
    | some t =>
      match t.kind with
      | .integer => return leaf "integer" true t.start (← take).stop
      | .float => return leaf "float" true t.start (← take).stop
      | .literal =>
        match ← literals fuel fuel with
        | [] => failure
        | found => return grouped "concatenated_string" found
      | .word =>
        match t.text with
        | "True" => return leaf "true" true t.start (← take).stop
        | "False" => return leaf "false" true t.start (← take).stop
        | "None" => return leaf "none" true t.start (← take).stop
        | _ => identifier
      | .symbol =>
        match t.text with
        | "(" => parenthesized fuel
        | "[" => bracketed fuel
        | "\x7b" => braced fuel
        | "..." => return leaf "ellipsis" true t.start (← take).stop
        | _ => failure
      | _ => failure

/-- Reads literals that follow each other. -/
def literals : Nat → Nat → Reading (List SyntaxNode)
  | 0, _ | _, 0 => return []
  | fuel + 1, count + 1 => do
    if ← isKind .literal then
      let t ← take
      let value? (tokens : List Token) : Option (List SyntaxNode) := do
        let (items, rest) ← (separated (element fuel) fuel).run tokens
        let value := grouped "expression_list" items
        match rest with
        | [] => some [value]
        | [t] => if t.text = "=" then some [value, fixed t] else none
        | _ => none
      match literalWith value? t with
      | some n => return n :: (← literals fuel count)
      | none => failure
    else return []

/-- Reads a value of `yield`. -/
def yielded : Nat → Reading SyntaxNode
  | 0 => failure
  | fuel + 1 => do
    let yield_ ← expect "yield"
    match ← accept "from" with
    | some from_ => return node "yield" [yield_, from_, ← expression fuel]
    | none =>
      if (← isNext ")") || (← isKind .newline) || (← isKind .comment) || (← isNext "=") then
        return node "yield" [yield_]
      else
        return node "yield" [
          yield_, grouped "expression_list" (← separated (element fuel) fuel)]

/-- Reads an expression in parentheses, a tuple, or a generator. -/
def parenthesized : Nat → Reading SyntaxNode
  | 0 => failure
  | fuel + 1 => do
    let opened ← expect "("
    if ← isNext ")" then return node "tuple" [opened, ← expect ")"]
    if ← isNext "yield" then
      let value ← yielded fuel
      return node "parenthesized_expression" [opened, value, ← expect ")"]
    let items ← separated (element fuel) fuel
    let clauses ← clauses fuel fuel
    let closed ← expect ")"
    let kind :=
      if !clauses.isEmpty then "generator_expression"
      else if items.length = 1 then "parenthesized_expression"
      else "tuple"
    return node kind ([opened] ++ items ++ clauses ++ [closed])

/-- Reads a list or a comprehension of one. -/
def bracketed : Nat → Reading SyntaxNode
  | 0 => failure
  | fuel + 1 => do
    let opened ← expect "["
    match ← accept "]" with
    | some closed => return node "list" [opened, closed]
    | none =>
      let items ← separated (element fuel) fuel
      let clauses ← clauses fuel fuel
      let closed ← expect "]"
      return node (if clauses.isEmpty then "list" else "list_comprehension")
        ([opened] ++ items ++ clauses ++ [closed])

/-- Reads a dictionary, a set, or a comprehension of one. -/
def braced : Nat → Reading SyntaxNode
  | 0 => failure
  | fuel + 1 => do
    let opened ← expect "\x7b"
    match ← accept "\x7d" with
    | some closed => return node "dictionary" [opened, closed]
    | none =>
      let items ← separated (entry fuel) fuel
      let clauses ← clauses fuel fuel
      let closed ← expect "\x7d"
      let isDictionary := items.head?.any fun n => n.kind = "pair" || n.kind = "dictionary_splat"
      let kind := match isDictionary, clauses.isEmpty with
        | true, true => "dictionary"
        | true, false => "dictionary_comprehension"
        | false, true => "set"
        | false, false => "set_comprehension"
      return node kind ([opened] ++ items ++ clauses ++ [closed])

/-- Reads an entry of a dictionary or a set. -/
def entry : Nat → Reading SyntaxNode
  | 0 => failure
  | fuel + 1 => do
    match ← accept "**" with
    | some stars => return node "dictionary_splat" [stars, ← operation fuel binaryLevels]
    | none =>
      let key ← element fuel
      match ← accept ":" with
      | none => return key
      | some colon => return node "pair" [key, colon, filling .value (← expression fuel)]

end

/-- Reads one expression or several with commas between them. -/
def expressions (fuel : Nat) : Reading SyntaxNode := do
  return grouped "expression_list" (← separated (element fuel) fuel)

end MutationTesting.Indented
