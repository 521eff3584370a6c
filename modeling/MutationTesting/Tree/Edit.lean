import MutationTesting.Text.Excerpt
import MutationTesting.Text.Quoted
import MutationTesting.Tree

/-!
# Edits of a source

An `Edit` replaces the bytes between two offsets.  `Edit.render` makes a list of edits, in
the order of their starts, and copies everything between them; `Edit.flaw?` tells of edits
that cannot be made, because they overlap or because they cut where no character ends.
-/

namespace MutationTesting

/-- A text for the bytes from `start` up to `stop`. -/
structure Edit where
  start : Nat
  stop : Nat
  text : String
  deriving DecidableEq, Repr

namespace Edit

/-- Puts `text` in the place of a node. -/
def replace (node : SyntaxNode) (text : String) : Edit :=
  ⟨node.info.start, node.info.stop, text⟩

/-- Takes the bytes between two offsets away. -/
def delete (start stop : Nat) : Edit := ⟨start, stop, ""⟩

/-- The rest of a source from byte `cursor` on, with edits made that are in the order of
their starts. -/
def renderFrom (source : String) (cursor : Nat) : List Edit → String
  | [] => Text.slice source cursor source.utf8ByteSize
  | e :: edits => Text.slice source cursor e.start ++ e.text ++ renderFrom source e.stop edits

/-- Edits in the order of their starts. -/
def inOrder (edits : List Edit) : List Edit := edits.mergeSort fun a b => a.start ≤ b.start

/-- A source with edits made. -/
def render (source : String) (edits : List Edit) : String :=
  renderFrom source 0 (inOrder edits)

/-! ### Edits that cannot be made -/

/-- One end of a part that is copied. -/
inductive End where
  | start
  | stop
  deriving DecidableEq, Repr

def End.name : End → String
  | .start => "start"
  | .stop => "end"

/-- Why edits cannot be made in a source. -/
inductive Flaw where
  | overlap
  /-- A part that is copied has an end beyond the source. -/
  | beyond (which : End) (offset : Nat)
  /-- A part that is copied has an end inside of a character, which starts at `start`. -/
  | inside (which : End) (offset start : Nat) (character : Char)
  deriving DecidableEq, Repr

/-- The most bytes of a source that a message shows. -/
def shownBytes : Nat := 256

/-- A source between grave accents, cut where it is long. -/
def shown (source : String) : String :=
  let start := String.ofList (Text.fitting shownBytes source.toList)
  "\x60" ++ start ++ "\x60" ++ if start = source then "" else "[...]"

def Flaw.message (source : String) : Flaw → String
  | .overlap => "overlapping edits"
  | .beyond which offset =>
    s!"{which.name} byte index {offset} is out of bounds of {shown source}"
  | .inside which offset start c =>
    s!"{which.name} byte index {offset} is not a char boundary; it is inside "
      ++ s!"'{String.ofList (Text.quoteChar c)}' (bytes {start}..{start + c.utf8Size}) of "
      ++ shown source

/-- The character that an offset is inside of, and where it starts; `start` is where the
text starts. -/
def straddled? (offset start : Nat) : List Char → Option (Nat × Char)
  | [] => none
  | c :: cs =>
    if offset ≤ start then none
    else if offset < start + c.utf8Size then some (start, c)
    else straddled? offset (start + c.utf8Size) cs

/-- What is wrong with one end of a part that is copied. -/
def endFlaw? (source : String) (which : End) (offset : Nat) : Option Flaw :=
  (straddled? offset 0 source.toList).map fun (start, c) => .inside which offset start c

/-- What is wrong with a part that is copied. -/
def copyFlaw? (source : String) (start stop : Nat) : Option Flaw :=
  let size := source.utf8ByteSize
  if size < start then some (.beyond .start start)
  else if size < stop then some (.beyond .stop stop)
  else (endFlaw? source .start start).or (endFlaw? source .stop stop)

/-- What is wrong with edits in the order of their starts, after byte `cursor`. -/
def flawFrom? (source : String) (cursor : Nat) : List Edit → Option Flaw
  | [] => copyFlaw? source cursor (max cursor source.utf8ByteSize)
  | e :: edits =>
    if e.start < cursor then some .overlap
    else (copyFlaw? source cursor e.start).or (flawFrom? source e.stop edits)

/-- Why edits cannot be made, if they cannot. -/
def flaw? (source : String) (edits : List Edit) : Option Flaw :=
  flawFrom? source 0 (inOrder edits)

end Edit

end MutationTesting
