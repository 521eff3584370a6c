/-!
# Blanks

The characters with the Unicode property White_Space, trimming, and splitting a text
into words at them.
-/

namespace MutationTesting.Text

/-- The characters with the Unicode property White_Space. -/
def isBlank (c : Char) : Bool :=
  let n := c.toNat
  (9 ≤ n && n ≤ 13) || n == 0x20 || n == 0x85 || n == 0xA0 || n == 0x1680
    || (0x2000 ≤ n && n ≤ 0x200A) || n == 0x2028 || n == 0x2029 || n == 0x202F
    || n == 0x205F || n == 0x3000

/-- Every blank of ASCII is a blank. -/
theorem isBlank_of_isWhitespace {c : Char} (h : c.isWhitespace = true) :
  isBlank c = true
  := by
  simp only [Char.isWhitespace, Bool.or_eq_true, decide_eq_true_eq] at h
  rcases h with ((rfl | rfl) | rfl) | rfl <;> rfl

/-- The blanks that a text starts with. -/
def indent (cs : List Char) : List Char := cs.takeWhile isBlank

def trimStart (cs : List Char) : List Char := cs.dropWhile isBlank

theorem indent_append_trimStart (cs : List Char) :
  indent cs ++ trimStart cs = cs
  := List.takeWhile_append_dropWhile

def trimEnd (cs : List Char) : List Char := (cs.reverse.dropWhile isBlank).reverse

def trim (cs : List Char) : List Char := trimEnd (trimStart cs)

/-- The maximal runs of characters that are no blanks. -/
def words (cs : List Char) : List (List Char) :=
  let (word, rest) := cs.foldr (fun c (word, rest) =>
    if isBlank c then ([], if word.isEmpty then rest else word :: rest) else (c :: word, rest))
    (([] : List Char), ([] : List (List Char)))
  if word.isEmpty then rest else word :: rest

end MutationTesting.Text
