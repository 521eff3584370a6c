import MutationTesting.Shell.Format
import MutationTesting.Shell.Tool.Stream

/-!
# Fields and characters

`cut` takes fields or characters out of lines, `paste` puts lines side by side, and `tr`
changes single characters.
-/

namespace MutationTesting.Shell

/-! ### Ranges -/

/-- The numbers from one on, up to another one if there is an end. -/
structure NumberRange where
  first : Nat
  last : Option Nat
  deriving DecidableEq, Repr

def NumberRange.contains (r : NumberRange) (n : Nat) : Bool := r.first ≤ n && r.last.all (n ≤ ·)

/-- Reads a range such as `3`, `2-`, `-4` or `2-4`. -/
def NumberRange.ofText? (cs : List Char) : Option NumberRange :=
  let first := cs.takeWhile Text.isDigit
  match cs.drop first.length with
  | [] =>
    let n := Text.digitsValue first
    if first.isEmpty then none else some ⟨n, some n⟩
  | '-' :: last =>
    if !last.all Text.isDigit || (first.isEmpty && last.isEmpty) then none
    else some ⟨if first.isEmpty then 1 else Text.digitsValue first,
      if last.isEmpty then none else some (Text.digitsValue last)⟩
  | _ => none

/-- Reads ranges with commas between them; `what` is what they number. -/
def readRanges (what text : String) : Except String (List NumberRange) := do
  let parts := splitAt (fun c => c == ',' || c == ' ') text.toList
  parts.mapM fun part =>
    match NumberRange.ofText? part with
    | none =>
      if part == ['-'] then .error "invalid range with no endpoint: -"
      else .error s!"invalid {what} value '{String.ofList part}'"
    | some r =>
      if r.first = 0 then
        .error (if what = "field" then "fields are numbered from 1"
          else "byte/character positions are numbered from 1")
      else if r.last.any (· < r.first) then .error "invalid decreasing range"
      else .ok r

/-! ### Cutting -/

/-- Takes parts of each line. -/
def cut : Tool := fun c =>
  let table : OptionTable := { plain := "snz!", valued := "fdcbO", long := [
    ("fields", 'f'), ("delimiter", 'd'), ("characters", 'c'), ("bytes", 'b'),
    ("only-delimited", 's'), ("output-delimiter", 'O'), ("complement", '!')] }
  c.withOptions table 1 fun o =>
    match o.last? "fcb" with
    | none => c.misused 1 "you must specify a list of bytes, characters, or fields"
    | some kind =>
      let isField := kind == 'f'
      let noun := if isField then "field" else "byte/character"
      match readRanges noun ((o.value? kind).getD "") with
      | .error text => c.misused 1 text
      | .ok ranges =>
        let mark := (o.value? 'd').getD "\t"
        if 1 < mark.length then c.misused 1 "the delimiter must be a single character"
        else if (o.value? 'd').isSome && !isField then
          c.misused 1 "an input delimiter may be specified only when operating on fields"
        else
          let delimiter := mark.toList.headD '\x00'
          let isWanted (n : Nat) : Bool := ranges.any (·.contains n) != o.has '!'
          let wanted {α : Type} (xs : List α) : List α :=
            (xs.zipIdx.filter fun (_, i) => isWanted (i + 1)).map (·.1)
          let separator := ((o.value? 'O').getD (String.ofList [delimiter])).toList
          let line (cs : List Char) : Option (List Char) :=
            if !isField then some (wanted cs)
            else if !cs.contains delimiter then if o.has 's' then none else some cs
            else some (separator.intercalate (wanted (splitAt (· == delimiter) cs)))
          textTool c o.operands
            (fun texts => String.join ((texts.flatMap lineChars).filterMap fun cs =>
              (line cs).map fun out => String.ofList (out ++ ['\n']))) plainComplaint 1

/-! ### Pasting -/

/-- Texts with separators between them that come in turn. -/
def joinCycling (marks : List Char) : List Char → List (List Char) → List Char
  | _, [] => []
  | _, [text] => text
  | [], text :: texts =>
    match marks with
    | [] => text ++ joinCycling marks [] texts
    | m :: rest => text ++ m :: joinCycling marks rest texts
  | m :: rest, text :: texts => text ++ m :: joinCycling marks rest texts

/-- The lists whose elements have the same place in some lists; the fuel bounds their number. -/
def sideBySide : Nat → List (List (List Char)) → List (List (List Char))
  | 0, _ => []
  | fuel + 1, columns =>
    if columns.all List.isEmpty then []
    else columns.map (·.headD []) :: sideBySide fuel (columns.map List.tail)

/-- Joins lines of files. -/
def paste : Tool := fun c =>
  let table : OptionTable := { plain := "sz", valued := "d", long := [
    ("delimiters", 'd'), ("serial", 's')] }
  c.withOptions table 1 fun o =>
    let marks := ((Format.unescaped ((o.value? 'd').getD "\t")).1).toList
    let dashes := o.operands.count "-"
    let (good, err) := goodSources c (c.sources o.operands 0) plainComplaint
    let row (parts : List (List Char)) : String :=
      String.ofList (joinCycling marks marks parts ++ ['\n'])
    let columns :=
      if 1 < dashes then
        let lines := lineChars c.input
        let shares := (List.range dashes).map fun (k : Nat) =>
          (lines.zipIdx.filter fun (_, i) => i % dashes = k).map (·.1)
        (good.foldl (fun (out, shares) (name, text) =>
          match name == "-", shares with
          | true, share :: rest => (out ++ [share], rest)
          | _, shares => (out ++ [lineChars text], shares)) (([] : List _), shares)).1
      else good.map fun (_, text) => lineChars text
    let rows := if o.has 's' then columns
      else sideBySide (total (columns.map List.length) + 1) columns
    if err.isEmpty then
      { disk := c.disk, out := String.join (rows.map row), appetite := appetiteFor o.operands }
    else { disk := c.disk, status := 1, err := err, appetite := appetiteFor o.operands }

/-! ### Changing characters -/

/-- An item of a set of characters of `tr`. -/
inductive SetItem where
  | chars (cs : List Char)
  /-- A class of characters by name. -/
  | named (name : String)
  /-- So many times the same; without a number as often as needed. -/
  | repeated (ch : Char) (count : Nat)
  deriving DecidableEq, Repr

/-- All characters in order. -/
def allChars : List Char := (List.range 256).map fun (n : Nat) => Char.ofNat n

/-- The characters of a class. -/
def classChars? (name : String) : Option (List Char) :=
  (Text.CharSet.classes.lookup name).map fun ranges =>
    allChars.filter (Text.CharSet.inRanges ranges)

/-- A character of a set, which may be an escape, and what follows it. -/
def setChar : List Char → Option (Char × List Char)
  | [] => none
  | '\\' :: cs =>
    match cs with
    | [] => some ('\\', [])
    | c :: rest =>
      if ('0' ≤ c && c ≤ '7') || (Format.letter? c).isSome then some (Format.escape cs)
      else some (c, rest)
  | c :: cs => some (c, cs)

/-- Reads the items of a set.  The fuel bounds their number. -/
def setItems : Nat → List Char → Except String (List SetItem)
  | 0, _ | _, [] => .ok []
  | fuel + 1, '[' :: ':' :: cs =>
    match Text.CharSet.upTo? ':' cs with
    | some (name, rest) =>
      if (classChars? (String.ofList name)).isSome then
        return .named (String.ofList name) :: (← setItems fuel rest)
      else .error s!"invalid character class '{String.ofList name}'"
    | none => do return .chars ['['] :: (← setItems fuel (':' :: cs))
  | fuel + 1, '[' :: '=' :: ch :: '=' :: ']' :: cs => do
    return .chars [ch] :: (← setItems fuel cs)
  | fuel + 1, cs =>
    let repeated : Option (SetItem × List Char) :=
      match cs with
      | '[' :: inside => do
        let (ch, rest) ← setChar inside
        match rest with
        | '*' :: more =>
          let digits := more.takeWhile Text.isDigit
          match more.drop digits.length with
          | ']' :: after =>
            let base := if digits.head? == some '0' then 8 else 10
            some (.repeated ch (digits.foldl (fun n d => base * n + (d.toNat - 48)) 0), after)
          | _ => none
        | _ => none
      | _ => none
    match repeated with
    | some (item, rest) => do return item :: (← setItems fuel rest)
    | none =>
      match setChar cs with
      | none => .ok []
      | some (a, '-' :: rest) =>
        match setChar rest with
        | none => .ok [.chars [a, '-']]
        | some (b, after) =>
          if b < a then
            let shown (ch : Char) : String := String.ofList [ch]
            .error (s!"range-endpoints of '{shown a}-{shown b}' are in reverse"
              ++ " collating sequence order")
          else do
            let range := (List.range (b.toNat + 1 - a.toNat)).map fun (i : Nat) =>
              Char.ofNat (a.toNat + i)
            return .chars range :: (← setItems fuel after)
      | some (a, rest) => do return .chars [a] :: (← setItems fuel rest)

/-- The characters of items, of which those that repeat as needed fill up to a length. -/
def setOf (length : Nat) (items : List SetItem) : List Char :=
  let fixed : SetItem → List Char
    | .chars cs => cs
    | .named name => (classChars? name).getD []
    | .repeated ch n => List.replicate n ch
  let known := total (items.map fun item => (fixed item).length)
  items.flatMap fun
    | .repeated ch 0 => List.replicate (length - known) ch
    | item => fixed item

/-- Takes runs of the same character of a set together. -/
def squeeze (set : List Char) (cs : List Char) : List Char :=
  (cs.foldl (fun (out : List Char) ch =>
    if out.head? == some ch && set.contains ch then out else ch :: out) []).reverse

/-- Changes, deletes or squeezes characters. -/
def tr : Tool := fun c =>
  let table : OptionTable := {
    plain := "dscCt", strict := true
    long := [
      ("delete", 'd'), ("squeeze-repeats", 's'), ("complement", 'c'), ("truncate-set1", 't')] }
  c.withOptions table 1 fun o =>
    let isComplement := o.has 'c' || o.has 'C'
    let result (change : List Char → List Char) : ToolResult :=
      { disk := c.disk, out := String.ofList (change c.input.toList), appetite := .all }
    let read (text : String) : Except String (List SetItem) :=
      setItems (text.length + 1) text.toList
    let complement (set : List Char) : List Char :=
      if isComplement then allChars.filter (!set.contains ·) else set
    let needed := if o.has 'd' then if o.has 's' then 2 else 1 else if o.has 's' then 1 else 2
    let most := if o.has 'd' && !o.has 's' then 1 else 2
    if o.operands.length < needed then
      match o.operands with
      | [] => c.misused 1 "missing operand"
      | a :: _ =>
        let why := if o.has 'd' then
            "Two strings must be given when both deleting and squeezing repeats."
          else "Two strings must be given when translating."
        c.misused 1 s!"missing operand after '{a}'\n{why}"
    else if most < o.operands.length then
      let extra := (o.operands[most]?).getD ""
      let why := if o.has 'd' && o.operands.length = 2 then
          "\nOnly one string may be given when deleting without squeezing repeats."
        else ""
      c.misused 1 s!"extra operand '{extra}'{why}"
    else
      let sets : Except String (List (List SetItem)) := o.operands.mapM read
      match sets with
      | .error text => c.fails 1 text
      | .ok [first] =>
        let set := complement (setOf 0 first)
        if o.has 'd' then result fun cs => cs.filter (!set.contains ·) else result (squeeze set)
      | .ok (first :: second :: _) =>
        let old := complement (setOf 0 first)
        let new := setOf old.length second
        if o.has 'd' then result fun cs => squeeze new (cs.filter (!old.contains ·))
        else if new.isEmpty && !o.has 't' then
          c.fails 1 "when not truncating set1, string2 must be non-empty"
        else
          let last := new.getLast?
          let table := old.zipIdx.map fun (ch, i) =>
            (ch, (new[i]?).or (if o.has 't' then none else last))
          -- the last mention of a character counts
          let change (ch : Char) : Char :=
            match table.reverse.lookup ch with
            | some (some other) => other
            | _ => ch
          result fun cs =>
            let changed := cs.map change
            if o.has 's' then squeeze new changed else changed
      | .ok [] => c.misused 1 "missing operand"

end MutationTesting.Shell
