import MutationTesting.Text.Offset

/-!
# Excerpts

`excerpt` keeps a text that fits into a number of bytes, and cuts a longer one after the
last character that fits.  The place to cut is found by `stepBack?`.
-/

namespace MutationTesting.Text

/-- The characters at the start of a text that fit into `budget` bytes together. -/
def fitting : Nat → List Char → List Char
  | _, [] => []
  | budget, c :: cs => if c.utf8Size ≤ budget then c :: fitting (budget - c.utf8Size) cs else []

theorem byteLength_fitting_le (budget : Nat) (cs : List Char) :
  byteLength (fitting budget cs) ≤ budget
  := by
  induction cs generalizing budget with
  | nil => simp [fitting]
  | cons c cs ih =>
    simp only [fitting]
    split
    · next h =>
      have := ih (budget - c.utf8Size)
      simp only [byteLength_cons]
      omega
    · simp

/-- The place that is reached from byte `n` of a text by steps of one byte back, up to where a
character starts or the text ends.  There is no step back from byte 0. -/
def stepBack? (text : String) (n : Nat) : Option Nat :=
  if String.Pos.Raw.isValid text ⟨n⟩ then some n
  else match n with
    | 0 => none
    | n + 1 => stepBack? text n

@[simp] theorem stepBack?_zero (text : String) :
  stepBack? text 0 = some 0
  := by
  have hzero : String.Pos.Raw.isValid text ⟨0⟩ = true :=
    String.Pos.Raw.isValid_eq_true_iff.mpr String.Pos.Raw.isValid_zero
  rw [stepBack?, if_pos hzero]

theorem stepBack?_succ (text : String) (n : Nat) :
  stepBack? text (n + 1)
    = if String.Pos.Raw.isValid text ⟨n + 1⟩ then some (n + 1) else stepBack? text n
  := by
  rw [stepBack?]

theorem isSome_stepBack? (text : String) (n : Nat) :
  (stepBack? text n).isSome
  := by
  induction n with
  | zero => simp
  | succ n ih =>
    rw [stepBack?_succ]
    split
    · rfl
    · exact ih

/-- What stands at the end of a text that was cut. -/
def cutMark : String := "...(truncated)"

/-- A text of at most `budget` bytes as it is; of a longer one as much as fits, and a mark. -/
def excerpt (text : String) (budget : Nat) : String :=
  if byteLength text.toList ≤ budget then text
  else slice text 0 ((stepBack? text budget).get (isSome_stepBack? text budget)) ++ cutMark

end MutationTesting.Text
