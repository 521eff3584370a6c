import MutationTesting.Tree.Indented.Expression

/-!
# Statements of indented sources

`parse` makes a syntax tree of a Python source.  A block holds its statements and the comments
between them.  A source with a statement that cannot be read gets a tree that says so.
-/

namespace MutationTesting.Indented

open Reading

/-! ### Simple statements -/

/-- The operators that change a variable. -/
def augmenting : List String :=
  ["+=", "-=", "*=", "/=", "//=", "%=", "@=", "**=", ">>=", "<<=", "&=", "^=", "|="]

/-- The pattern that an expression is when something is assigned to it.  The fuel bounds how
deep it is nested. -/
def asPattern : Nat → SyntaxNode → SyntaxNode
  | 0, n => n
  | fuel + 1, n =>
    let within (kind : String) : SyntaxNode :=
      .mk { n.info with kind := kind } (n.children.map (asPattern fuel))
    match n.kind with
    | "tuple" | "parenthesized_expression" => within "tuple_pattern"
    | "list" => within "list_pattern"
    | "list_splat" => within "list_splat_pattern"
    | _ => n

/-- What is assigned to, out of the expressions before the sign. -/
def target (fuel : Nat) (items : List SyntaxNode) : SyntaxNode :=
  filling .left (grouped "pattern_list" (items.map (asPattern fuel)))

/-- Reads the right side of an assignment, which may assign once more. -/
def assigned : Nat → Nat → Reading SyntaxNode
  | _, 0 => failure
  | fuel, count + 1 => do
    if ← isNext "yield" then yielded fuel
    else
      let items ← separated (element fuel) fuel
      match ← accept "=" with
      | none => return grouped "expression_list" items
      | some equals =>
        return node "assignment" [
          target fuel items, equals, filling .right (← assigned fuel count)]

/-- Reads the type of a variable, and its value if there is one. -/
def declared (fuel : Nat) (items : List SyntaxNode) (colon : SyntaxNode) : Reading SyntaxNode := do
  let type := node "type" [← expression fuel]
  match ← accept "=" with
  | none => return node "assignment" [target fuel items, colon, type]
  | some equals =>
    return node "assignment" [
      target fuel items, colon, type, equals, filling .right (← assigned fuel fuel)]

def expressionStatement (fuel : Nat) : Reading SyntaxNode := do
  if ← isNext "yield" then return node "expression_statement" [← yielded fuel]
  let items ← separated (element fuel) fuel
  match ← acceptAny ("=" :: ":" :: augmenting) with
  | none => return node "expression_statement" items
  | some sign =>
    let change ← match sign.kind with
      | "=" =>
        pure (node "assignment" [
          target fuel items, sign, filling .right (← assigned fuel fuel)])
      | ":" => declared fuel items sign
      | _ =>
        pure (node "augmented_assignment" [
          target fuel items, sign, filling .right (← assigned fuel fuel)])
    return node "expression_statement" [change]

/-- Reads names with dots between them. -/
def dottedName (fuel : Nat) : Reading SyntaxNode := do
  return node "dotted_name" (← parts fuel)
where
  parts : Nat → Reading (List SyntaxNode)
    | 0 => failure
    | count + 1 => do
      let name ← identifier
      match ← accept "." with
      | none => return [name]
      | some dot => return name :: dot :: (← parts count)

/-- Reads a name that is imported, under another name perhaps. -/
def imported (fuel : Nat) : Reading SyntaxNode := do
  let name ← dottedName fuel
  match ← accept "as" with
  | none => return filling .name name
  | some as_ =>
    return filling .name (node "aliased_import" [filling .name name, as_, ← identifier])

/-- Reads dots, and a module that is found from there. -/
def module_ (fuel : Nat) : Reading SyntaxNode := do
  match ← dots fuel with
  | [] => dottedName fuel
  | found =>
    let start := node "import_prefix" found
    if ← isNext "import" then return node "relative_import" [start]
    else return node "relative_import" [start, ← dottedName fuel]
where
  dots : Nat → Reading (List SyntaxNode)
    | 0 => return []
    | count + 1 => do
      match ← accept "." with
      | none => return []
      | some dot => return dot :: (← dots count)

def importFrom (fuel : Nat) (from_ : SyntaxNode) : Reading SyntaxNode := do
  let source ← module_ fuel
  let import_ ← expect "import"
  match ← accept "*" with
  | some star =>
    return node "import_from_statement" [from_, source, import_, node "wildcard_import" [star]]
  | none =>
    match ← accept "(" with
    | some opened =>
      let names ← separated (imported fuel) fuel
      let closed ← expect ")"
      return node "import_from_statement" ([from_, source, import_, opened] ++ names ++ [closed])
    | none =>
      return node "import_from_statement"
        ([from_, source, import_] ++ (← separated (imported fuel) fuel))

/-- Reads a value that a statement may have after its keyword. -/
def optionalValue (fuel : Nat) : Reading (List SyntaxNode) := do
  if (← isKind .newline) || (← isKind .comment) || (← isNext ";") || (← isNext "from") then
    return []
  else return [← expressions fuel]

def raised (fuel : Nat) (raise : SyntaxNode) : Reading SyntaxNode := do
  let value ← optionalValue fuel
  let cause ← match ← accept "from" with
    | none => pure []
    | some from_ => do pure [from_, ← expression fuel]
  return node "raise_statement" (raise :: value ++ cause)

/-- The keywords of simple statements. -/
def keywords : List String := [
  "pass", "break", "continue", "return", "del", "raise", "assert", "global", "nonlocal",
  "import", "from"]

def simpleStatement (fuel : Nat) : Reading SyntaxNode := do
  match ← acceptAny keywords with
  | none => expressionStatement fuel
  | some keyword =>
    match keyword.kind with
    | "return" => return node "return_statement" (keyword :: (← optionalValue fuel))
    | "del" => return node "delete_statement" [keyword, ← expressions fuel]
    | "raise" => raised fuel keyword
    | "assert" =>
      return node "assert_statement" (keyword :: (← separated (expression fuel) fuel))
    | "global" => return node "global_statement" (keyword :: (← separated identifier fuel))
    | "nonlocal" => return node "nonlocal_statement" (keyword :: (← separated identifier fuel))
    | "import" =>
      return node "import_statement" (keyword :: (← separated (imported fuel) fuel))
    | "from" => importFrom fuel keyword
    | kind => return node (kind ++ "_statement") [keyword]

/-- Reads the simple statements of a line, with what parts them and a comment at the end. -/
def line (fuel : Nat) : Nat → Reading (List SyntaxNode)
  | 0 => failure
  | count + 1 => do
    let first ← simpleStatement fuel
    match ← accept ";" with
    | none => return first :: (← ending)
    | some semicolon =>
      if (← isKind .newline) || (← isKind .comment) then return first :: semicolon :: (← ending)
      else return first :: semicolon :: (← line fuel count)
where
  ending : Reading (List SyntaxNode) := do
    let comments ← comments fuel
    let _ ← takeKind .newline
    return comments

/-! ### Patterns -/

mutual

/-- Reads a pattern of a case. -/
def casePattern : Nat → Reading SyntaxNode
  | 0 => failure
  | fuel + 1 => do
    let whole := node "case_pattern" (← namedPattern fuel <|> alternatives fuel)
    match ← accept "as" with
    | none => return whole
    | some as_ => return node "case_pattern" [node "as_pattern" [whole, as_, ← identifier]]

/-- Reads a pattern for an argument that is given by name. -/
def namedPattern : Nat → Reading (List SyntaxNode)
  | 0 => failure
  | fuel + 1 => do
    let name ← identifier
    let equals ← expect "="
    return [node "keyword_pattern" ([name, equals] ++ (← simplePattern fuel))]

/-- Reads patterns of which one is to match. -/
def alternatives : Nat → Reading (List SyntaxNode)
  | 0 => failure
  | fuel + 1 => do
    let first ← simplePattern fuel
    match ← moreAlternatives fuel fuel with
    | [] => return first
    | rest => return [node "union_pattern" (first ++ rest)]

def moreAlternatives : Nat → Nat → Reading (List SyntaxNode)
  | 0, _ | _, 0 => return []
  | fuel + 1, count + 1 => do
    match ← accept "|" with
    | none => return []
    | some bar => return [bar] ++ (← simplePattern fuel) ++ (← moreAlternatives fuel count)

/-- Reads a number. -/
def number (fuel : Nat) : Reading SyntaxNode := do
  if (← isKind .integer) || (← isKind .float) then atom fuel else failure

/-- Reads a number with the sign before it, and another one that is added to it or not.  A
negative number alone is two nodes. -/
def numberPattern (sign : List SyntaxNode) (fuel : Nat) : Reading (List SyntaxNode) := do
  let first ← number fuel
  match ← acceptAny ["+", "-"] with
  | none => return sign ++ [first]
  | some operator => return [node "complex_pattern" (sign ++ [first, operator, ← number fuel])]

/-- Reads a pattern that is not put together with others. -/
def simplePattern : Nat → Reading (List SyntaxNode)
  | 0 => failure
  | fuel + 1 => do
    match ← acceptAny ["_", "-", "*", "**", "(", "["] with
    | none =>
      if ← isKind .word then
        let t ← next?
        if t.any fun t => ["True", "False", "None"].contains t.text then return [← atom fuel]
        else return [← classPattern fuel]
      else if ← isNext "\x7b" then return [← mappingPattern fuel]
      else if (← isKind .integer) || (← isKind .float) then numberPattern [] fuel
      else
        let text ← atom fuel
        if ["string", "concatenated_string"].contains text.kind then return [text] else failure
    | some mark =>
      match mark.kind with
      | "_" => return [mark]
      | "-" => numberPattern [mark] fuel
      | "*" | "**" => return [node "splat_pattern" [mark, ← wildcard]]
      | "(" => return [← sequencePattern fuel mark ")" "tuple_pattern"]
      | _ => return [← sequencePattern fuel mark "]" "list_pattern"]

/-- Reads a name, or the mark that stands for any. -/
def wildcard : Reading SyntaxNode := do
  match ← accept "_" with
  | some mark => return mark
  | none => identifier

/-- Reads the patterns of a sequence up to its closing bracket. -/
def sequencePattern : Nat → SyntaxNode → String → String → Reading SyntaxNode
  | 0, _, _, _ => failure
  | fuel + 1, opened, closing, kind => do
    match ← accept closing with
    | some closed => return node kind [opened, closed]
    | none =>
      let items ← separated (casePattern fuel) fuel
      return node kind ([opened] ++ items ++ [← expect closing])

/-- Reads a name with dots, or a class with patterns for what it was made of. -/
def classPattern : Nat → Reading SyntaxNode
  | 0 => failure
  | fuel + 1 => do
    let name ← dottedName fuel
    match ← accept "(" with
    | none => return name
    | some opened =>
      match ← accept ")" with
      | some closed => return node "class_pattern" [name, opened, closed]
      | none =>
        let items ← separated (casePattern fuel) fuel
        return node "class_pattern" ([name, opened] ++ items ++ [← expect ")"])

/-- Reads keys with patterns for their values. -/
def mappingPattern : Nat → Reading SyntaxNode
  | 0 => failure
  | fuel + 1 => do
    let opened ← expect "\x7b"
    match ← accept "\x7d" with
    | some closed => return node "dict_pattern" [opened, closed]
    | none =>
      let items ← mappingItems fuel fuel
      return node "dict_pattern" ([opened] ++ items ++ [← expect "\x7d"])

def mappingItems : Nat → Nat → Reading (List SyntaxNode)
  | 0, _ | _, 0 => return []
  | fuel + 1, count + 1 => do
    let item ← match ← acceptAny ["*", "**"] with
      | some stars => do pure [node "splat_pattern" [stars, ← wildcard]]
      | none => do
        let key ← simplePattern fuel
        let colon ← expect ":"
        pure (key ++ [colon, filling .value (← casePattern fuel)])
    match ← accept "," with
    | none => return item
    | some comma =>
      if ← isNext "\x7d" then return item ++ [comma]
      else return item ++ [comma] ++ (← mappingItems fuel count)

end

/-! ### Compound statements -/

/-- What a context manager or an exception is called, if it is given a name. -/
def bound (fuel : Nat) (value : SyntaxNode) : Reading SyntaxNode := do
  match ← accept "as" with
  | none => return filling .value value
  | some as_ =>
    return filling .value (node "as_pattern" [
      value, as_, node "as_pattern_target" [← primary fuel]])

def withItem (fuel : Nat) : Reading SyntaxNode := do
  return node "with_item" [← bound fuel (← expression fuel)]

/-- Reads the context managers of a `with` statement. -/
def withClause (fuel : Nat) : Reading SyntaxNode := do
  return node "with_clause" (← separated (withItem fuel) fuel)

/-- A block without statements, where the line before it ends. -/
def emptyBlock : Reading (List SyntaxNode) := do
  let t ← takeKind .newline
  return [leaf "block" true t.start t.stop]

/-- Makes a block, in which there is at least one statement. -/
def blockOf : List SyntaxNode → Reading SyntaxNode
  | [] => failure
  | items => return node "block" items

/-- The words that a compound statement starts with. -/
def openers : List String :=
  ["if", "while", "for", "try", "with", "def", "class", "async", "@"]

/-- The field that a clause fills in its statement. -/
def clauseField (statement : String) (clause : SyntaxNode) : SyntaxNode :=
  if statement = "try_statement" then clause else filling .alternative clause

mutual

/-- Reads a statement, or the statements of a line. -/
def statement : Nat → Reading (List SyntaxNode)
  | 0 => failure
  | fuel + 1 => do
    match ← next? with
    | none => failure
    | some t =>
      if t.kind = .comment then comments 1
      else if (t.kind = .word || t.kind = .symbol) && openers.contains t.text then
        return [← compound fuel]
      else if t.kind = .word && t.text = "match" then
        (do return [← matching fuel]) <|> line fuel fuel
      else line fuel fuel

/-- Reads statements up to the end of their block. -/
def statements : Nat → Nat → Reading (List SyntaxNode)
  | 0, _ | _, 0 => return []
  | fuel + 1, count + 1 => do
    if (← next?).isNone || (← isKind .dedent) then return []
    else
      let first ← statement fuel
      return first ++ (← statements fuel count)

/-- Reads a colon and the block after it; comments that come first are not in the block. -/
def suite : Nat → Option Field → Reading (List SyntaxNode)
  | 0, _ => failure
  | fuel + 1, field => do
    let colon ← expect ":"
    let place (n : SyntaxNode) : SyntaxNode := field.elim n (filling · n)
    let early ← comments fuel
    if !(← isKind .newline) then
      let body ← blockOf (← line fuel fuel)
      return [colon] ++ early ++ [place body]
    let ended ← emptyBlock
    if ← isKind .indent then
      let _ ← take
      let late ← comments fuel
      let body ← blockOf (← statements fuel fuel)
      let _ ← takeKind .dedent
      return [colon] ++ early ++ late ++ [place body]
    else return [colon] ++ early ++ ended.map place

/-- Reads the clauses that go on with a statement, with comments between them. -/
def continuations : Nat → Nat → String → Reading (List SyntaxNode)
  | 0, _, _ | _, 0, _ => return []
  | fuel + 1, count + 1, kind =>
    (do
      let before ← comments fuel
      let clause ← continuation fuel
      return before ++ [clauseField kind clause] ++ (← continuations fuel count kind))
    <|> return []

/-- Reads a clause that goes on with a statement. -/
def continuation : Nat → Reading SyntaxNode
  | 0 => failure
  | fuel + 1 => do
    match ← acceptAny ["elif", "else", "except", "finally"] with
    | none => failure
    | some keyword =>
      match keyword.kind with
      | "elif" =>
        let test ← expression fuel
        return node "elif_clause"
          ([keyword, filling .condition test] ++ (← suite fuel (some .consequence)))
      | "except" =>
        let star ← accept "*"
        let caught ← if ← isNext ":" then pure []
          else do pure [← bound fuel (← expressions fuel)]
        return node (if star.isSome then "except_group_clause" else "except_clause")
          ([keyword] ++ star.toList ++ caught ++ (← suite fuel none))
      | kind => return node (kind ++ "_clause") (keyword :: (← suite fuel none))

/-- Reads a statement with a block. -/
def compound : Nat → Reading SyntaxNode
  | 0 => failure
  | fuel + 1 => do
    if ← isNext "@" then decorated fuel
    else
      let async_ := (← accept "async").toList
      match ← acceptAny ["if", "while", "for", "try", "with", "def", "class"] with
      | none => failure
      | some keyword =>
        match keyword.kind with
        | "if" =>
          let test ← expression fuel
          let block ← suite fuel (some .consequence)
          return node "if_statement" ([keyword, filling .condition test] ++ block
            ++ (← continuations fuel fuel "if_statement"))
        | "while" =>
          let test ← expression fuel
          let block ← suite fuel none
          return node "while_statement" ([keyword, filling .condition test] ++ block
            ++ (← continuations fuel fuel "while_statement"))
        | "for" =>
          let left ← targets fuel
          let in_ ← expect "in"
          let right ← expressions fuel
          let block ← suite fuel none
          return node "for_statement" (async_
            ++ [keyword, filling .left (asPattern fuel left), in_, filling .right right] ++ block
            ++ (← continuations fuel fuel "for_statement"))
        | "try" =>
          let block ← suite fuel none
          return node "try_statement"
            ([keyword] ++ block ++ (← continuations fuel fuel "try_statement"))
        | "with" =>
          let clause ← withClause fuel
          return node "with_statement" (async_ ++ [keyword, clause] ++ (← suite fuel none))
        | "def" => function fuel (async_ ++ [keyword])
        | _ =>
          let name ← identifier
          let bases ← if ← isNext "(" then do pure [← arguments fuel] else pure []
          return node "class_definition"
            ([keyword, filling .name name] ++ bases ++ (← suite fuel none))

/-- Reads a function from its name on. -/
def function : Nat → List SyntaxNode → Reading SyntaxNode
  | 0, _ => failure
  | fuel + 1, head => do
    let name ← identifier
    let opened ← expect "("
    let items ← if ← isNext ")" then pure [] else separated (parameter fuel true) fuel
    let closed ← expect ")"
    let result ← match ← accept "->" with
      | none => pure []
      | some arrow => do pure [arrow, node "type" [← expression fuel]]
    return node "function_definition"
      (head ++ [filling .name name, node "parameters" ([opened] ++ items ++ [closed])]
        ++ result ++ (← suite fuel none))

/-- Reads decorators and what they decorate. -/
def decorated : Nat → Reading SyntaxNode
  | 0 => failure
  | fuel + 1 => do
    let first ← decorators fuel fuel
    return node "decorated_definition" (first ++ [← compound fuel])

def decorators : Nat → Nat → Reading (List SyntaxNode)
  | 0, _ | _, 0 => return []
  | fuel + 1, count + 1 => do
    match ← accept "@" with
    | none => return []
    | some sign =>
      let value ← expression fuel
      let after ← comments fuel
      let _ ← takeKind .newline
      return [node "decorator" [sign, value]] ++ after ++ (← decorators fuel count)

/-- Reads a `match` statement. -/
def matching : Nat → Reading SyntaxNode
  | 0 => failure
  | fuel + 1 => do
    let match_ ← expect "match"
    let subjects ← separated (expression fuel) fuel
    let colon ← expect ":"
    let early ← comments fuel
    let _ ← takeKind .newline
    let _ ← takeKind .indent
    let late ← comments fuel
    let body ← blockOf (← caseClauses fuel fuel)
    let _ ← takeKind .dedent
    return node "match_statement"
      ([match_] ++ subjects ++ [colon] ++ early ++ late ++ [body])

def caseClauses : Nat → Nat → Reading (List SyntaxNode)
  | 0, _ | _, 0 => return []
  | fuel + 1, count + 1 => do
    if ← isKind .dedent then return []
    else
      let before ← comments fuel
      if ← isKind .dedent then return before
      let case_ ← expect "case"
      let patterns ← separated (casePattern fuel) fuel
      let guard_ ← match ← accept "if" with
        | none => pure []
        | some if_ => do pure [node "if_clause" [if_, ← expression fuel]]
      let block ← suite fuel (some .consequence)
      let clause := filling .alternative
        (node "case_clause" ([case_] ++ patterns ++ guard_ ++ block))
      return before ++ [clause] ++ (← caseClauses fuel count)

end

/-! ### Sources -/

mutual

/-- Puts a node that was set aside in its place inside a tree. -/
def insert (extra : SyntaxNode) : SyntaxNode → SyntaxNode
  | .mk info children => .mk info (insertAmong extra children)

/-- Puts a node that was set aside in its place inside or between trees. -/
def insertAmong (extra : SyntaxNode) : List SyntaxNode → List SyntaxNode
  | [] => [extra]
  | n :: rest =>
    if n.info.start < extra.info.start && extra.info.stop < n.info.stop then
      insert extra n :: rest
    else if extra.info.start < n.info.start then extra :: n :: rest
    else n :: insertAmong extra rest

end

/-- A tree that says only where its text cannot be read. -/
def broken (start stop : Nat) : SyntaxNode :=
  .mk { kind := "ERROR", named := true, hasError := true, isError := true, isMissing := false
        start := start, stop := stop, fields := [] } []

/-- The tree of a source out of its statements. -/
def module (items : List SyntaxNode) (stop : Nat) : SyntaxNode :=
  .mk (leaf "module" true ((items.head?.map (·.info.start)).getD stop) stop).info items

/-- Makes a syntax tree of a source. -/
def parse (source : String) : SyntaxNode :=
  let stop := source.utf8ByteSize
  match lex 0 0 source.toList with
  | none => broken 0 stop
  | some (tokens, extras) =>
    let fuel := 20 * (tokens.length + 10)
    match (statements fuel fuel).run tokens with
    | some (items, []) =>
      module (extras.foldl (fun items extra => insertAmong extra items) items) stop
    | some (_, t :: _) => broken t.start stop
    | none => broken 0 stop

end MutationTesting.Indented
