import MutationTesting.Disk
import MutationTesting.Shell
import MutationTesting.Text.Bytes
import MutationTesting.Text.Regex.Match

/-!
# Patterns of the shell

In a pattern `?` is any character, `*` any characters, and brackets are around characters to
choose from.  `Pattern.ofGlyphs` reads one from characters of which some are quoted and stand
for themselves.  `Pattern.files` gives the files with names of a pattern, and the other
functions match a text or take a match off its start or end.
-/

namespace MutationTesting.Shell

/-- A character of a word, and whether it is quoted. -/
structure Glyph where
  char : Char
  quoted : Bool
  deriving DecidableEq, Repr

/-- The text of characters. -/
def glyphText (glyphs : List Glyph) : String := String.ofList (glyphs.map (·.char))

/-- A pattern is a regular expression for a text as a whole. -/
abbrev Pattern := Text.Regex.Program

namespace Pattern

open Text (Regex CharSet)

/-- Whether a character has a meaning in a pattern. -/
def isSign (g : Glyph) : Bool := !g.quoted && (g.char == '*' || g.char == '?' || g.char == '[')

/-- The text of characters, with backslashes before those that are quoted. -/
def escaped (glyphs : List Glyph) : List Char :=
  glyphs.flatMap fun g => if g.quoted then ['\\', g.char] else [g.char]

/-- Reads a pattern.  The fuel bounds the number of characters. -/
def expression : Nat → List Char → Regex
  | 0, _ | _, [] => .empty
  | fuel + 1, '\\' :: c :: cs => .both (.one (.single c)) (expression fuel cs)
  | fuel + 1, '?' :: cs => .both (.one .all) (expression fuel cs)
  | fuel + 1, '*' :: cs => .both (.times (.one .all) 0 none) (expression fuel cs)
  | fuel + 1, '[' :: cs =>
    match CharSet.ofBrackets? '!' true cs with
    | .ok (set, rest) => .both (.one set) (expression fuel rest)
    | .error _ => .both (.one (.single '[')) (expression fuel cs)
  | fuel + 1, c :: cs => .both (.one (.single c)) (expression fuel cs)

def ofGlyphs (glyphs : List Glyph) : Pattern :=
  let cs := escaped glyphs
  (expression (cs.length + 1) cs).compile

/-- Reads a pattern in which only backslashes quote. -/
def ofText (text : String) : Pattern :=
  (expression (text.length + 1) text.toList).compile

/-- Whether a text as a whole is of a pattern. -/
def isMatch (p : Pattern) (text : String) : Bool := Regex.isMatch p text.toList

/-- Takes the shortest or longest match off the start of a text. -/
def trimStart (p : Pattern) (longest : Bool) (text : String) : String :=
  let cs := text.toList
  let lengths := List.range (cs.length + 1)
  let lengths := if longest then lengths.reverse else lengths
  match lengths.find? fun n => Regex.isMatch p (cs.take n) with
  | some n => String.ofList (cs.drop n)
  | none => text

/-- Takes the shortest or longest match off the end of a text. -/
def trimEnd (p : Pattern) (longest : Bool) (text : String) : String :=
  let cs := text.toList
  let lengths := List.range (cs.length + 1)
  let lengths := if longest then lengths else lengths.reverse
  match lengths.find? fun n => Regex.isMatch p (cs.drop n) with
  | some n => String.ofList (cs.take n)
  | none => text

/-! ### Files -/

/-- The parts between slashes. -/
def components (glyphs : List Glyph) : List (List Glyph) :=
  glyphs.foldr (fun g parts =>
    match parts with
    | part :: parts => if g.char == '/' then [] :: part :: parts else (g :: part) :: parts
    | [] => [[g]]) [[]]

/-- Texts in the order of their bytes. -/
def sorted (texts : List String) : List String :=
  texts.mergeSort fun a b => (Path.compareNames a b).isLE

/-- The names in a directory that are of a pattern.  Those with a dot at the start must have
one in the pattern. -/
def namesIn (d : Disk) (directory : String) (glyphs : List Glyph) : List String :=
  let names := (d.list (if directory.isEmpty then "." else Text.decode directory)).toOption.getD []
  let p := ofGlyphs glyphs
  let startsWithDot := glyphs.head?.any (·.char == '.')
  let shown := names.map Text.encode |>.filter fun name => startsWithDot == name.startsWith "."
  (if startsWithDot then "." :: ".." :: shown else shown).filter (isMatch p)

/-- The files whose paths start with a text and go on with given parts. -/
def filesFrom (d : Disk) : List (List Glyph) → String → List String
  | [], _ => []
  | [last], start =>
    if last.any isSign then (namesIn d start last).map (start ++ ·)
    else
      let path := start ++ glyphText last
      if d.isPresent (Text.decode path) then [path] else []
  | part :: next :: parts, start =>
    if part.any isSign then
      let directories := (namesIn d start part).filter fun name =>
        d.isDirectory (Text.decode (start ++ name))
      directories.flatMap fun name => filesFrom d (next :: parts) (start ++ name ++ "/")
    else filesFrom d (next :: parts) (start ++ glyphText part ++ "/")

/-- The files whose paths are of a pattern, in order; without any, the pattern itself. -/
def files (d : Disk) (glyphs : List Glyph) : List String :=
  if glyphs.any isSign then
    let found := filesFrom d (components glyphs) ""
    if found.isEmpty then [glyphText glyphs] else sorted found
  else [glyphText glyphs]

end Pattern

end MutationTesting.Shell
