import MutationTesting.Shell.Tool.Stream

/-!
# Sorted lines

`sort` orders lines by keys, `uniq` takes equal neighbours together, and `comm` compares two
sorted files.
-/

namespace MutationTesting.Shell

/-! ### Keys -/

/-- A part of a line by which lines are ordered: from a character of a field on, and up to the
end of a field or a character of it. -/
structure SortKey where
  field : Nat
  char : Nat := 0
  /-- The field, counted from 1, and the number of its characters, or 0 for all of them. -/
  stop : Option (Nat × Nat) := none
  options : List Char := []
  deriving DecidableEq, Repr

def isSortBlank (c : Char) : Bool := c == ' ' || c == '\t' || c == '\n'

/-- What follows so many fields. -/
def dropFields (mark : Option Char) : Nat → List Char → List Char
  | 0, cs => cs
  | n + 1, cs =>
    match mark with
    | some m => dropFields mark n ((cs.dropWhile (· != m)).drop 1)
    | none => dropFields mark n ((cs.dropWhile isSortBlank).dropWhile (!isSortBlank ·))

/-- The length of so many fields, with the marks between them. -/
def fieldsLength (mark : Option Char) (n : Nat) (cs : List Char) : Nat :=
  match mark with
  | none => cs.length - (dropFields none n cs).length
  | some m =>
    let rest := dropFields mark (n - 1) cs
    cs.length - rest.length + (rest.takeWhile (· != m)).length

/-- The part of a line that a key is for. -/
def SortKey.of (k : SortKey) (mark : Option Char) (cs : List Char) : List Char :=
  let skip (cs : List Char) : List Char :=
    if k.options.contains 'b' then cs.dropWhile isSortBlank else cs
  let start := (skip (dropFields mark k.field cs)).drop k.char
  match k.stop with
  | none => start
  | some (field, count) =>
    let begun := cs.length - start.length
    let upTo := if count = 0 then fieldsLength mark field cs
      else cs.length - ((skip (dropFields mark (field - 1) cs)).drop count).length
    start.take (upTo - begun)

/-- Reads a place such as `2.3` with letters after it. -/
def keyPlace? (cs : List Char) : Option (Nat × Nat × List Char) :=
  let field := cs.takeWhile Text.isDigit
  let rest := cs.drop field.length
  if field.isEmpty then none
  else match rest with
    | '.' :: more =>
      let char := more.takeWhile Text.isDigit
      some (Text.digitsValue field, Text.digitsValue char, more.drop char.length)
    | rest => some (Text.digitsValue field, 0, rest)

/-- Reads a key. -/
def SortKey.ofText? (text : String) : Option SortKey := do
  let (field, char, rest) ← keyPlace? text.toList
  let letters := rest.takeWhile Char.isAlpha
  let key : SortKey := { field := field - 1, char := char - 1, options := letters }
  if field = 0 then none
  else match rest.drop letters.length with
    | [] => some key
    | ',' :: more => do
      let (field, count, rest) ← keyPlace? more
      if rest.all Char.isAlpha then
        some { key with stop := some (field, count), options := letters ++ rest }
      else none
    | _ => none

/-! ### Order -/

/-- The number at the start of a text, times a thousand million. -/
def sortNumber (cs : List Char) : Int :=
  let cs := cs.dropWhile isSortBlank
  let (negative, cs) := match cs with
    | '-' :: rest => (true, rest)
    | cs => (false, cs)
  let whole := cs.takeWhile Text.isDigit
  let places := match cs.drop whole.length with
    | '.' :: rest => rest.takeWhile Text.isDigit
    | _ => []
  let n : Int := Text.digitsValue (whole ++ (places ++ List.replicate 9 '0').take 9)
  if negative then -n else n

/-- The number at the start of a text with a letter for its size. -/
def humanNumber (cs : List Char) : Int :=
  let body := (cs.dropWhile isSortBlank).dropWhile (· == '-')
  let unit := (body.dropWhile fun c => Text.isDigit c || c == '.').head?
  let power := match unit with
    | some c => (['K', 'M', 'G', 'T', 'P'].idxOf? c.toUpper).map (· + 1)
    | none => none
  sortNumber cs * Nat.pow 1024 (power.getD 0)

/-- A text parted into runs of digits and of other characters. -/
def versionParts : Nat → List Char → List (List Char × Nat)
  | 0, _ | _, [] => []
  | fuel + 1, cs =>
    let text := cs.takeWhile (!Text.isDigit ·)
    let rest := cs.drop text.length
    let digits := rest.takeWhile Text.isDigit
    (text, Text.digitsValue digits) :: versionParts fuel (rest.drop digits.length)

/-- Compares two keys as options say. -/
def compareKeys (options : List Char) (a b : List Char) : Ordering :=
  let has (c : Char) : Bool := options.contains c
  let plain (cs : List Char) : List Char :=
    let cs := if has 'b' then cs.dropWhile isSortBlank else cs
    let cs := if has 'd' then cs.filter fun c => c.isAlphanum || isSortBlank c else cs
    if has 'f' then cs.map Char.toUpper else cs
  let order :=
    if has 'n' || has 'g' then compare (sortNumber a) (sortNumber b)
    else if has 'h' then compare (humanNumber a) (humanNumber b)
    else if has 'V' then
      let x := versionParts (a.length + 1) a
      let y := versionParts (b.length + 1) b
      let unequal := (x.zip y).find? fun (u, v) => u != v
      match unequal with
      | some (u, v) => (compare u.1 v.1).then (compare u.2 v.2)
      | none => compare x.length y.length
    else compare (plain a) (plain b)
  if has 'r' then order.swap else order

/-- Sorts lines by keys. -/
def sortTool : Tool := fun c =>
  let table : OptionTable := { plain := "nrufbcCshVgdimMRz", valued := "ktoST", long := [
    ("numeric-sort", 'n'), ("reverse", 'r'), ("unique", 'u'), ("ignore-case", 'f'),
    ("ignore-leading-blanks", 'b'), ("check", 'c'), ("stable", 's'), ("key", 'k'),
    ("field-separator", 't'), ("output", 'o'), ("version-sort", 'V'),
    ("human-numeric-sort", 'h'), ("dictionary-order", 'd'), ("general-numeric-sort", 'g')] }
  c.withOptions table 2 fun o =>
    let overall := (o.given.map (·.1)).filter "nrfbhVgd".toList.contains
    let mark := (o.value? 't').bind fun s => if s = "\\0" then some '\x00' else s.toList.head?
    let written := (o.values 'k').map fun text => (text, SortKey.ofText? text)
    match written.find? fun (_, k) => k.isNone with
    | some (text, _) =>
      if text.startsWith "0" then
        c.fails 2 s!"field number is zero: invalid field specification '{text}'"
      else c.fails 2 s!"invalid number at field start: invalid count at start of '{text}'"
    | none =>
      let keys := written.filterMap fun (_, k) => k.map fun k =>
        if k.options.isEmpty then { k with options := overall } else k
      let byKeys (a b : List Char) : Ordering :=
        if keys.isEmpty then compareKeys overall a b
        else keys.foldl (fun order k =>
          order.then (compareKeys k.options (k.of mark a) (k.of mark b))) .eq
      let order (a b : List Char) : Ordering :=
        if o.has 's' || o.has 'u' then byKeys a b
        else (byKeys a b).then (if o.has 'r' then (compare a b).swap else compare a b)
      let (good, err) := goodSources c (c.sources o.operands 0) fun name e =>
        if e = .isADirectory then s!"read failed: {name}: {e.reason}"
        else s!"cannot read: {name}: {e.reason}"
      let lines := good.flatMap fun (_, text) => lineChars text
      let appetite := appetiteFor o.operands
      if !err.isEmpty then { disk := c.disk, status := 2, err := err, appetite := appetite }
      else if o.has 'c' || o.has 'C' then
        let wrong := (lines.zip lines.tail).zipIdx.find? fun ((a, b), _) =>
          order a b == .gt || (o.has 'u' && order a b == .eq)
        match wrong with
        | none => { disk := c.disk, appetite := appetite }
        | some ((_, b), i) =>
          { disk := c.disk, status := 1, appetite := appetite
            err := if o.has 'C' then "" else
              c.message (o.operands.headD "-" ++ s!":{i + 2}: disorder: {String.ofList b}") }
      else
        let sorted := lines.mergeSort fun a b => (order a b).isLE
        let sorted := if o.has 'u' then
            (sorted.foldl (fun (kept : List (List Char)) line =>
              match kept with
              | last :: _ => if byKeys last line == .eq then kept else line :: kept
              | [] => [line]) []).reverse
          else sorted
        let text := unlines (sorted.map String.ofList)
        match o.value? 'o' with
        | none => { disk := c.disk, out := text, appetite := appetite }
        | some path =>
          match Process.writeFile c.disk path text with
          | .ok disk => { disk := disk, appetite := appetite }
          | .error e => { c.fails 2 s!"open failed: {path}: {e.reason}" with appetite := appetite }

/-! ### Neighbours -/

/-- Runs of lines that count as equal. -/
def groupLines (isSame : List Char → List Char → Bool) (lines : List (List Char)) :
    List (List Char × Nat) :=
  (lines.foldl (fun (groups : List (List Char × Nat)) line =>
    match groups with
    | (first, n) :: rest =>
      if isSame first line then (first, n + 1) :: rest else (line, 1) :: (first, n) :: rest
    | [] => [(line, 1)]) []).reverse

/-- Takes lines that repeat the one before together. -/
def uniq : Tool := fun c =>
  let table : OptionTable := { plain := "cdDui", valued := "fsw", long := [
    ("count", 'c'), ("repeated", 'd'), ("unique", 'u'), ("ignore-case", 'i'),
    ("skip-fields", 'f'), ("skip-chars", 's'), ("check-chars", 'w')] }
  c.withOptions table 1 fun o =>
    let number (letter : Char) : Option Nat := (o.value? letter).bind fun s => Text.digits? s.toList
    let key (line : List Char) : List Char :=
      let rest := (dropFields none ((number 'f').getD 0) line).drop ((number 's').getD 0)
      let rest := match number 'w' with
        | some n => rest.take n
        | none => rest
      if o.has 'i' then rest.map Char.toUpper else rest
    let source := o.operands.take 1
    let (good, err) := goodSources c (c.sources source 0) plainComplaint
    let groups := groupLines (fun a b => key a == key b) (good.flatMap fun (_, t) => lineChars t)
    let shown := groups.filter fun (_, n) =>
      !(o.has 'd' && n = 1) && !(o.has 'u' && n ≠ 1)
    let row (line : List Char) (n : Nat) : String :=
      (if o.has 'c' then padLeft 7 ' ' (toString n) ++ " " else "") ++ String.ofList line ++ "\n"
    let out := String.join (shown.map fun (line, n) => row line n)
    let result : ToolResult := {
      disk := c.disk, err := err, status := if err.isEmpty then 0 else 1
      appetite := appetiteFor source }
    match o.operands.drop 1 with
    | [] => { result with out := out }
    | [path] =>
      match Process.writeFile c.disk path out with
      | .ok disk => { result with disk := disk }
      | .error e => c.fails 1 s!"{path}: {e.reason}"
    | _ :: extra :: _ => c.misused 1 s!"extra operand '{extra}'"

/-- Lines of the first list alone, of the second alone, and of both, as columns. -/
def compareSorted (row : Nat → List Char → String) :
    Nat → List (List Char) → List (List Char) → List String
  | 0, _, _ => []
  | _, [], ys => ys.map (row 1)
  | _, xs, [] => xs.map (row 0)
  | fuel + 1, x :: xs, y :: ys =>
    match compare x y with
    | .lt => row 0 x :: compareSorted row fuel xs (y :: ys)
    | .gt => row 1 y :: compareSorted row fuel (x :: xs) ys
    | .eq => row 2 x :: compareSorted row fuel xs ys

/-- Compares two sorted files. -/
def comm : Tool := fun c =>
  c.withOptions { plain := "123" } 1 fun o =>
    match o.operands with
    | [a, b] =>
      let (good, err) := goodSources c (c.sources [a, b] 0) plainComplaint
      let isShown (column : Nat) : Bool := !o.has (Char.ofNat ('1'.toNat + column))
      let row (column : Nat) (line : List Char) : String :=
        if isShown column then
          let before := ((List.range column).filter isShown).length
          String.ofList (List.replicate before '\t' ++ line ++ ['\n'])
        else ""
      match good.map fun (_, text) => lineChars text with
      | [xs, ys] =>
        { disk := c.disk, appetite := appetiteFor [a, b]
          out := String.join (compareSorted row (xs.length + ys.length + 1) xs ys) }
      | _ => { disk := c.disk, err := err, status := 1 }
    | [] => c.misused 1 "missing operand"
    | [a] => c.misused 1 s!"missing operand after '{a}'"
    | _ :: _ :: extra :: _ => c.misused 1 s!"extra operand '{extra}'"

end MutationTesting.Shell
