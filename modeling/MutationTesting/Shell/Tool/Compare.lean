import MutationTesting.Diff
import MutationTesting.Shell.Tool.Stream

/-!
# Comparing files

`cmp` finds the first byte in which two files differ, and `diff` prints how the lines of one
become those of the other.
-/

namespace MutationTesting.Shell

/-- The place of the first difference: the number of bytes and of newlines before it, and
whether a text ends there. -/
structure Difference where
  bytes : Nat
  newlines : Nat
  ends : Option Bool
  deriving DecidableEq, Repr

/-- The first difference between two texts; `ends` says whether it is the first text that
ends. -/
def firstDifference (bytes newlines : Nat) : List Char → List Char → Option Difference
  | [], [] => none
  | [], _ => some ⟨bytes, newlines, some true⟩
  | _, [] => some ⟨bytes, newlines, some false⟩
  | a :: as, b :: bs =>
    if a = b then firstDifference (bytes + 1) (if a == '\n' then newlines + 1 else newlines) as bs
    else some ⟨bytes, newlines, none⟩

/-- Compares two files byte by byte. -/
def cmp : Tool := fun c =>
  let table : OptionTable := { plain := "slb", long := [
    ("silent", 's'), ("quiet", 's'), ("verbose", 'l')] }
  c.withOptions table 2 fun o =>
    match o.operands with
    | [] => c.misused 2 s!"missing operand after '{c.name}'"
    | a :: rest =>
      let b := rest.headD "-"
      let appetite := appetiteFor [a, b]
      let silent := o.has 's'
      let (good, err) := goodSources c (c.sources [a, b] 0) plainComplaint
      match good with
      | [(_, x), (_, y)] =>
        let xs := x.toList
        let ys := y.toList
        let result : ToolResult := { disk := c.disk, status := 1, appetite := appetite }
        let octal (ch : Char) : String :=
          padLeft 3 ' ' (String.ofList (Nat.toDigits 8 ch.toNat))
        match firstDifference 0 0 xs ys with
        | none => { result with status := 0 }
        | some d =>
          if silent then result
          else if o.has 'l' then
            let width := (toString (min xs.length ys.length)).length
            let rows := (xs.zip ys).zipIdx.filterMap fun ((p, q), i) =>
              if p = q then none
              else
                let place := padLeft width ' ' (toString (i + 1))
                some s!"{place} {octal p} {octal q}\n"
            { result with out := String.join rows }
          else match d.ends with
            | none =>
              { result with out := s!"{a} {b} differ: char {d.bytes + 1}, line {d.newlines + 1}\n" }
            | some isFirst =>
              let name := if isFirst then a else b
              let atLineEnd := d.bytes = 0 || xs[d.bytes - 1]? == some '\n'
              let line := if atLineEnd then s!"line {d.newlines}" else s!"in line {d.newlines + 1}"
              let text := if d.bytes = 0 then s!"EOF on {name} which is empty"
                else s!"EOF on {name} after byte {d.bytes}, {line}"
              { result with err := c.message text }
      | _ =>
        { disk := c.disk, status := 2, err := if silent then "" else err, appetite := appetite }

/-! ### Line differences -/

/-- Lines that become others, with the numbers of lines before them in both files. -/
structure LineChange where
  oldBefore : Nat
  old : List String
  newBefore : Nat
  new : List String
  deriving DecidableEq, Repr

/-- The changes of a script, those next to each other as one. -/
def changesOf (script : Diff.Script String) : List LineChange :=
  let step := fun (acc : List LineChange × Nat × Nat × Bool) (hunk : Diff.Hunk String) =>
    let (changes, x, y, joined) := acc
    match hunk with
    | .keep xs => (changes, x + xs.length, y + xs.length, false)
    | hunk =>
      let (old, new) := (hunk.old, hunk.new)
      let changes := match joined, changes with
        | true, last :: rest => { last with old := last.old ++ old, new := last.new ++ new } :: rest
        | _, changes => ⟨x, old, y, new⟩ :: changes
      (changes, x + old.length, y + new.length, true)
  (script.foldl step ([], 0, 0, false)).1.reverse

/-- A line with a mark before it; a missing newline at its end is told. -/
def markedLine (mark line : String) : String :=
  if line.endsWith "\n" then mark ++ line else mark ++ line ++ "\n\\ No newline at end of file\n"

/-- The numbers of lines after so many others. -/
def rangeText (before count : Nat) : String :=
  if count = 0 then toString before
  else if count = 1 then toString (before + 1)
  else s!"{before + 1},{before + count}"

/-- A change in the normal form. -/
def LineChange.normal (ch : LineChange) : String :=
  let letter := if ch.old.isEmpty then "a" else if ch.new.isEmpty then "d" else "c"
  rangeText ch.oldBefore ch.old.length ++ letter ++ rangeText ch.newBefore ch.new.length ++ "\n"
    ++ String.join (ch.old.map (markedLine "< "))
    ++ (if ch.old.isEmpty || ch.new.isEmpty then "" else "---\n")
    ++ String.join (ch.new.map (markedLine "> "))

/-- Changes that are shown together, because few lines are between them. -/
def groupChanges (context : Nat) : List LineChange → List (List LineChange)
  | [] => []
  | ch :: rest =>
    match groupChanges context rest with
    | (next :: more) :: groups =>
      if next.oldBefore ≤ ch.oldBefore + ch.old.length + 2 * context then
        (ch :: next :: more) :: groups
      else [ch] :: (next :: more) :: groups
    | groups => [ch] :: groups

/-- The numbers of lines in the unified form. -/
def unifiedRange (before count : Nat) : String :=
  if count = 1 then toString (before + 1)
  else if count = 0 then s!"{before},0"
  else s!"{before + 1},{count}"

/-- A group of changes in the unified form. -/
def unifiedGroup (context : Nat) (old : List String) (group : List LineChange) : String :=
  match group with
  | [] => ""
  | first :: _ =>
    let last := group.getLast?.getD first
    let start := first.oldBefore - context
    let stop := min old.length (last.oldBefore + last.old.length + context)
    let oldCount := stop - start
    let grown := total (group.map fun ch => ch.new.length)
    let shrunk := total (group.map fun ch => ch.old.length)
    let newStart := first.newBefore - (first.oldBefore - start)
    let kept (a b : Nat) : String :=
      String.join (((old.drop a).take (b - a)).map (markedLine " "))
    let (body, position) := group.foldl (fun (out, line) ch =>
      (out ++ kept line ch.oldBefore ++ String.join (ch.old.map (markedLine "-"))
        ++ String.join (ch.new.map (markedLine "+")), ch.oldBefore + ch.old.length)) ("", start)
    s!"@@ -{unifiedRange start oldCount} +{unifiedRange newStart (oldCount + grown - shrunk)} @@\n"
      ++ body ++ kept position stop

/-- Compares two files line by line. -/
def diffTool : Tool := fun c =>
  let table : OptionTable := { plain := "qusbwiBarNy", valued := "UL", long := [
    ("brief", 'q'), ("unified", 'u'), ("report-identical-files", 's'), ("ignore-case", 'i'),
    ("ignore-all-space", 'w'), ("ignore-space-change", 'b'), ("ignore-blank-lines", 'B'),
    ("text", 'a'), ("recursive", 'r'), ("new-file", 'N'), ("label", 'L')] }
  c.withOptions table 2 fun o =>
    match o.operands with
    | [] => c.misused 2 s!"missing operand after '{c.name}'"
    | [a] => c.misused 2 s!"missing operand after '{a}'"
    | a :: b :: _ =>
      let isDirectory (path : String) : Bool := fileKind? c.disk path == some .directory
      let lastPart (path : String) : String :=
        String.ofList (path.toList.reverse.takeWhile (· != '/')).reverse
      let within (path other : String) : String :=
        if isDirectory path && !isDirectory other && other != "-" then path ++ "/" ++ lastPart other
        else path
      let (a, b) := (within a b, within b a)
      let appetite := appetiteFor [a, b]
      let (good, err) := goodSources c (c.sources [a, b] 0) plainComplaint
      match good with
      | [(_, x), (_, y)] =>
        let key (line : String) : String :=
          let cs := line.toList
          let cs := if o.has 'w' then cs.filter (!Text.CharSet.space.contains ·) else cs
          let cs := if o.has 'b' then
              let words := (splitAt Text.CharSet.space.contains cs).filter (!·.isEmpty)
              (if cs.head?.any Text.CharSet.space.contains then [' '] else [])
                ++ [' '].intercalate words
            else cs
          String.ofList (if o.has 'i' then cs.map Char.toLower else cs)
        let isLoose := o.has 'w' || o.has 'b' || o.has 'i'
        let old := wholeLines x
        let new := wholeLines y
        let changes :=
          if isLoose then
            -- the lines themselves stand where their keys do
            let keyed := changesOf (Diff.Script.between (old.map key) (new.map key))
            keyed.map fun ch => { ch with
              old := (old.drop ch.oldBefore).take ch.old.length
              new := (new.drop ch.newBefore).take ch.new.length }
          else changesOf (Diff.Script.between old new)
        let changes := if o.has 'B' then
            changes.filter fun ch => !(ch.old ++ ch.new).all (· == "\n")
          else changes
        let result : ToolResult := {
          disk := c.disk, appetite := appetite, status := if changes.isEmpty then 0 else 1 }
        if changes.isEmpty then
          { result with out := if o.has 's' then s!"Files {a} and {b} are identical\n" else "" }
        else if o.has 'q' then { result with out := s!"Files {a} and {b} differ\n" }
        else if o.has 'u' || o.has 'U' then
          let context := ((o.value? 'U').bind fun s => Text.digits? s.toList).getD 3
          let labels := o.values 'L'
          let title (mark path : String) (i : Nat) : String :=
            match labels[i]? with
            | some label => s!"{mark} {label}\n"
            | none => s!"{mark} {path}\t1970-01-01 00:00:00.000000000 +0000\n"
          { result with out := title "---" a 0 ++ title "+++" b 1
              ++ String.join ((groupChanges context changes).map (unifiedGroup context old)) }
        else { result with out := String.join (changes.map LineChange.normal) }
      | _ => { disk := c.disk, status := 2, err := err, appetite := appetite }

end MutationTesting.Shell
