/-!
# Lines of a text

`splitLines` parts a text at its newlines, so that `joinLines` puts it together again;
`lines` drops the line ends and an empty last line instead.
-/

namespace MutationTesting.Text

/-- The texts between the newlines; one more than there are newlines. -/
def splitLines : List Char → List (List Char)
  | [] => [[]]
  | c :: cs =>
    if c = '\n' then [] :: splitLines cs
    else match splitLines cs with
      | [] => [[c]]
      | line :: lines => (c :: line) :: lines

/-- The lines with a newline between each two. -/
def joinLines : List (List Char) → List Char
  | [] => []
  | [line] => line
  | line :: lines => line ++ '\n' :: joinLines lines

theorem splitLines_ne_nil (cs : List Char) :
  splitLines cs ≠ []
  := by
  cases cs with
  | nil => simp [splitLines]
  | cons c cs =>
    simp only [splitLines]
    split
    · simp
    · split <;> simp

theorem joinLines_splitLines (cs : List Char) :
  joinLines (splitLines cs) = cs
  := by
  induction cs with
  | nil => rfl
  | cons c cs ih =>
    simp only [splitLines]
    split
    · next h =>
      subst h
      cases hs : splitLines cs with
      | nil => exact absurd hs (splitLines_ne_nil cs)
      | cons l ls => rw [hs] at ih; simp [joinLines, ih]
    · cases hs : splitLines cs with
      | nil => exact absurd hs (splitLines_ne_nil cs)
      | cons l ls =>
        rw [hs] at ih
        cases ls with
        | nil => simpa [joinLines] using ih
        | cons l' ls => simpa [joinLines] using ih

/-- The lines of a text without their ends `\n` or `\r\n`; a text that ends in a newline
has no further line after it. -/
def lines (text : String) : List String :=
  let all := splitLines text.toList
  let ended := all.dropLast.map fun line =>
    if line.getLast? == some '\r' then line.dropLast else line
  let unended := all.getLast?.filter (!·.isEmpty)
  (ended ++ unended.toList).map String.ofList

end MutationTesting.Text
