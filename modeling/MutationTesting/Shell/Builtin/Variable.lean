import MutationTesting.Shell.Pattern
import MutationTesting.Shell.Redirection
import MutationTesting.Shell.Tool

/-!
# Commands on variables

Commands of the shell that set its variables, its options and its arguments.  `read` takes
them from a line of the input and `getopts` from arguments.
-/

namespace MutationTesting.Shell.Builtin

/-! ### Arguments of commands -/

/-- The options that arguments start with, each with its argument, and what follows them.
`valued` are the letters of those that have one. -/
def readOptions (plain valued : String) :
    List String → Except String (List (Char × String) × List String)
  | [] => .ok ([], [])
  | arg :: args =>
    match arg.toList with
    | ['-', '-'] => .ok ([], args)
    | '-' :: c :: cs =>
      let flags := (c :: cs).takeWhile plain.toList.contains
      let given := flags.map fun flag => (flag, "")
      match (c :: cs).drop flags.length with
      | [] => do
        let (more, rest) ← readOptions plain valued args
        return (given ++ more, rest)
      | letter :: value =>
        if !valued.toList.contains letter then .error s!"Illegal option -{letter}"
        else if !value.isEmpty then do
          let (more, rest) ← readOptions plain valued args
          return (given ++ (letter, String.ofList value) :: more, rest)
        else match args with
          | [] => .error s!"No arg for -{letter} option"
          | next :: args => do
            let (more, rest) ← readOptions plain valued args
            return (given ++ (letter, next) :: more, rest)
    | _ => .ok ([], arg :: args)

/-- The same, with a complaint about what is no option. -/
def takeOptions (plain valued : String) (args : List String) :
    Eval (List (Char × String) × List String) :=
  match readOptions plain valued args with
  | .ok found => return found
  | .error text => fail text

/-- The number that an argument is. -/
def number (text : String) : Eval Nat :=
  match Arithmetic.number? false text with
  | some (Int.ofNat n) => if n < 2147483648 then return n else fail s!"Illegal number: {text}"
  | _ => fail s!"Illegal number: {text}"

/-! ### Showing variables -/

/-- Characters between quotes, so that the shell reads them back; `n` bounds their number. -/
def quotedFrom : Nat → List Char → List Char
  | 0, _ => []
  | n + 1, cs =>
    let plain := cs.takeWhile (· != '\x27')
    let marks := (cs.drop plain.length).takeWhile (· == '\x27')
    let rest := cs.drop (plain.length + marks.length)
    let first := '\x27' :: plain ++ ['\x27']
    if marks.isEmpty then first
    else first ++ '"' :: marks ++ '"' :: if rest.isEmpty then [] else quotedFrom n rest

def quoted (text : String) : String :=
  String.ofList (quotedFrom (text.length + 1) text.toList)

/-- Prints variables with a property by name, after a label. -/
def showVariables (label : String) (isShown : Binding → Bool) : Eval Unit := do
  let shown := (← get).bindings.filter fun (_, b) => isShown b
  let lines := (shown.mergeSort fun a b => (Path.compareNames a.1 b.1).isLE).map fun (name, b) =>
    label ++ name ++ match b.value with
      | some value => "=" ++ quoted value
      | none => ""
  let _ ← emit 1 (unlines lines)

/-! ### Marking variables -/

/-- A name, and the value that may follow it. -/
def nameAndValue (word : String) : String × Option String :=
  match Text.firstSplit? ['='] word.toList with
  | some (name, value) => (String.ofList name, some (String.ofList value))
  | none => (word, none)

/-- Marks variables as constant, or for other programs, and may give them values. -/
def declare (constant : Bool) (args : List String) : Eval Unit := do
  let (options, names) ← takeOptions "p" "" args
  if names.isEmpty || !options.isEmpty then
    showVariables (if constant then "readonly " else "export ") fun b =>
      if constant then b.constant else b.exported
  else
    for word in names do
      let (name, value) := nameAndValue word
      match value with
      | some value => assign name value
      | none => if !isName name then fail s!"{name}: bad variable name"
      modify fun p =>
        let b := (p.bindings.lookup name).getD { value := none }
        p.bind name (some { b with
          constant := b.constant || constant, exported := b.exported || !constant })
  setStatus 0

/-- The command `local`. -/
def localNames (args : List String) : Eval Unit := do
  if (← get).locals.isEmpty then fail "not in a function"
  else
    for word in args do
      let (name, value) := nameAndValue word
      if name = "-" then
        modify fun p => match p.locals with
          | frame :: frames =>
            let before : Binding := { value := some (String.ofList p.options) }
            { p with locals := (frame ++ [("-", some before)]) :: frames }
          | [] => p
      else
        if !isName name then fail s!"{name}: bad variable name"
        modify (·.makeLocal name)
        match value with
        | some value => assign name value
        | none => pure ()
    setStatus 0

/-- The command `unset`. -/
def forget (args : List String) : Eval Unit := do
  let (options, names) ← takeOptions "vf" "" args
  for name in names do
    if (options.getLast?.map (·.1)) = some 'f' then
      modify fun p => { p with functions := p.functions.filter (·.1 != name) }
    else
      checkName name
      modify fun p => p.bind name none
  setStatus 0

/-! ### Options and arguments of the shell -/

/-- Prints the options that have names. -/
def showOptions (readable : Bool) : Eval Unit := do
  let p ← get
  let lines := namedOptions.map fun (name, letter) =>
    let on := p.hasOption letter
    if readable then padRight 16 name ++ if on then "on" else "off"
    else (if on then "set -o " else "set +o ") ++ name
  let _ ← emit 1 (unlines (if readable then "Current option settings" :: lines else lines))

/-- Turns an option on or off, and gives the words after it. -/
def turnOption (on : Bool) (words : List String) (letter : Char) : Eval (List String) := do
  if letter = 'o' then
    match words with
    | [] => do
      showOptions on
      return []
    | name :: words =>
      match namedOptions.lookup name with
      | some letter => do
        modify (·.setOption letter on)
        return words
      | none => fail s!"Illegal option -o {name}"
  else if "efImnsxvVECabu".toList.contains letter || letter == 'i' then
    modify (·.setOption letter on)
    return words
  else fail s!"Illegal option -{letter}"

/-- Turns options on and off; gives the new arguments of the shell, if it gets any.  The fuel
bounds the number of words. -/
def turnOptions : Nat → List String → Eval (Option (List String))
  | 0, _ | _, [] => return none
  | fuel + 1, word :: words => do
    match word.toList with
    | ['-', '-'] => return some words
    | ['-'] => do
      modify fun p => (p.setOption 'x' false).setOption 'v' false
      return if words.isEmpty then none else some words
    | sign :: letters =>
      if sign = '-' || sign = '+' then
        let words ← letters.foldlM (turnOption (sign == '-')) words
        turnOptions fuel words
      else return some (word :: words)
    | [] => return some (word :: words)

/-- The command `set`. -/
def setArguments (args : List String) : Eval Unit := do
  if args.isEmpty then showVariables "" (·.value.isSome)
  else
    match ← turnOptions (args.length + 1) args with
    | some words => modify fun p => { p with args := words }
    | none => pure ()
  setStatus 0

/-- The command `shift`. -/
def shift (args : List String) : Eval Unit := do
  let n ← match args with
    | text :: _ => number text
    | [] => pure 1
  let p ← get
  if p.args.length < n then fail "can't shift that many"
  else set { p with args := p.args.drop n, status := 0 }

/-! ### Reading options from arguments -/

/-- Gives a variable a value, or none. -/
def setOrForget (name : String) (value : Option String) : Eval Unit :=
  match value with
  | some value => assign name value
  | none => modify fun p => p.bind name none

/-- The command `getopts`: the next option of arguments, by the letters that there are. -/
def nextOption (letters name : String) (args : List String) : Eval Unit := do
  let p ← get
  let silent := letters.toList.head? == some ':'
  let known := if silent then letters.toList.drop 1 else letters.toList
  let (index, letter) := p.option
  let index := if args.length + 1 < index || index = 0 then 1 else index
  let finish (index letter : Nat) (option : String) (argument : Option (Option String))
      (status : Nat) : Eval Unit := do
    match argument with
    | some value => setOrForget "OPTARG" value
    | none => pure ()
    assign "OPTIND" (toString index)
    assign name option
    modify fun p => { p with option := (index, letter), status := status }
  let current := (args[index - 2]?.getD "").toList
  let inside := 1 < index && letter ≠ 0 && letter < current.length
  let word := if inside then some (current, letter, index)
    else match args[index - 1]?.map String.toList with
      | some ('-' :: c :: cs) => some ('-' :: c :: cs, 1, index + 1)
      | _ => none
  match word with
  | none => finish index 0 "?" none 1
  | some (word, place, index) =>
    if word = ['-', '-'] then finish index 0 "?" none 1
    else
      let c := word.getD place ' '
      let rest := word.drop (place + 1)
      let next := if rest.isEmpty then 0 else place + 1
      let shown := String.ofList [c]
      if c = ':' || !known.contains c then
        if !silent then printError s!"Illegal option -{c}\n"
        finish index next "?" (some (if silent then some shown else none)) 0
      else if (known.dropWhile (· != c)).drop 1 |>.head? |>.any (· == ':') then
        if !rest.isEmpty then finish index 0 shown (some (some (String.ofList rest))) 0
        else match args[index - 1]? with
          | some argument => finish (index + 1) 0 shown (some (some argument)) 0
          | none =>
            if silent then finish index 0 ":" (some (some shown)) 0
            else
              printError s!"No arg for -{c} option\n"
              finish index 0 "?" (some none) 0
      else finish index next shown (some (some "")) 0

/-! ### Reading a line -/

/-- The fields of a line so far. -/
structure Cut where
  /-- The complete ones, the last first. -/
  complete : List String := []
  /-- How many more fields there may be, the current one among them; it goes on to the end of
  the line when there is none. -/
  left : Nat
  /-- The characters of the current field, the last first. -/
  current : List Char := []
  /-- How many of them are kept if nothing but separators follows. -/
  kept : Option Nat := none
  /-- Whether a blank has ended a field, so that a separator still belongs to its end. -/
  blank : Bool := false

namespace Cut

def add (cut : Cut) (c : Char) : Cut := { cut with current := c :: cut.current }

/-- Takes a character of a line. -/
def step (separators : List Char) (cut : Cut) (g : Glyph) : Cut :=
  let c := g.char
  if g.quoted then { cut.add c with blank := false }
  else
    let parts := separators.contains c
    let isBlank := parts && [' ', '\t', '\n'].contains c
    if cut.left = 0 then
      if isBlank then { cut.add c with kept := some (cut.kept.getD cut.current.length) }
      else { cut.add c with kept := if parts && cut.blank then cut.kept else none, blank := false }
    else if cut.blank && parts then { cut with current := [], blank := isBlank }
    else if parts then
      if cut.current.isEmpty && isBlank then { cut with blank := false }
      else if cut.left = 1 then
        { cut.add c with left := 0, kept := some cut.current.length, blank := isBlank }
      else { cut with
        complete := String.ofList cut.current.reverse :: cut.complete
        left := cut.left - 1, current := [], blank := isBlank }
    else { cut.add c with blank := false }

/-- The fields of a line, so many at most. -/
def fields (separators : List Char) (count : Nat) (line : List Glyph) : List String :=
  let cut := line.foldl (step separators) { left := count }
  let last := match cut.kept with
    | some n => cut.current.reverse.take n
    | none => cut.current.reverse
  (if last.isEmpty then cut.complete else String.ofList last :: cut.complete).reverse

end Cut

/-- Lines that have been taken off a flow are put back. -/
def putLinesBack (n : Nat) (lines : List String) : Eval Unit := modify fun p =>
  match p.flow? n with
  | some flow =>
    if lines.isEmpty then p
    else p.setFlow n { flow with chunks := lines.map (⟨p.now, ·⟩) ++ flow.chunks }
  | none => p

/-- The characters of a part of a line, with those quoted that follow a backslash, in reverse
order.  Gives also whether a backslash waits for the next part, and whether the line is over. -/
def unescapeLine (raw : Bool) (line : List Glyph) (escaped : Bool) :
    List Char → List Glyph × Bool × Bool
  | [] => (line, escaped, false)
  | c :: cs =>
    if c == '\x00' then unescapeLine raw line escaped cs
    else if escaped then
      unescapeLine raw (if c == '\n' then line else ⟨c, true⟩ :: line) false cs
    else if c == '\\' && !raw then unescapeLine raw line true cs
    else if c == '\n' then (line, false, true)
    else unescapeLine raw (⟨c, false⟩ :: line) false cs

/-- Reads a line off a flow; gives also whether it was complete.  The fuel bounds the number of
parts that it comes in. -/
def readLine (raw : Bool) (n : Nat) : Nat → List Glyph → Bool → Eval (List Glyph × Bool)
  | 0, line, _ => return (line, false)
  | fuel + 1, line, escaped => do
    match ← takeChunk n with
    | none => return (line, false)
    | some text =>
      let parts := wholeLines text
      putLinesBack n parts.tail
      let (line, escaped, complete) := unescapeLine raw line escaped (parts.headD "").toList
      if complete then return (line, true) else readLine raw n fuel line escaped

/-- The command `read`. -/
def readVariables (args : List String) : Eval Unit := do
  let (options, names) ← takeOptions "r" "p" args
  if names.isEmpty then fail "arg count"
  else
    let raw := options.any (·.1 == 'r')
    let (line, complete) ← match ← inputOf 0 with
      | some n => readLine raw n maxSteps [] false
      | none => pure ([], false)
    let fields := Cut.fields (← get).separators.toList names.length line.reverse
    for (name, i) in names.zipIdx do assign name (fields[i]?.getD "")
    setStatus (if complete then 0 else 1)

end MutationTesting.Shell.Builtin
