/-!
# Byte offsets in a text

A text is a list of characters, and places in it are named by the number of UTF-8
bytes before them.  `cut?` parts a text at an offset that starts a character,
`slice` takes the text between two offsets, and `positionAt` gives the line and
column of an offset, both counted from 1 and columns in bytes.
-/

namespace MutationTesting.Text

/-- The number of bytes that a text takes in UTF-8. -/
def byteLength : List Char → Nat
  | [] => 0
  | c :: cs => c.utf8Size + byteLength cs

@[simp] theorem byteLength_nil :
  byteLength [] = 0
  := rfl

@[simp] theorem byteLength_cons (c : Char) (cs : List Char) :
  byteLength (c :: cs) = c.utf8Size + byteLength cs
  := rfl

@[simp] theorem byteLength_append (a b : List Char) :
  byteLength (a ++ b) = byteLength a + byteLength b
  := by
  induction a with
  | nil => simp
  | cons c a ih => simp [ih, Nat.add_assoc]

/-- The text before byte `n` and the text from it on, when byte `n` starts a character
or ends the text. -/
def cut? : Nat → List Char → Option (List Char × List Char)
  | 0, cs => some ([], cs)
  | _ + 1, [] => none
  | n + 1, c :: cs =>
    if n + 1 < c.utf8Size then none
    else (cut? (n + 1 - c.utf8Size) cs).map fun (before, after) => (c :: before, after)

/-- Cutting loses nothing and cuts at the offset asked for. -/
theorem eq_append_of_cut? {n : Nat} {cs before after : List Char}
    (h : cut? n cs = some (before, after)) :
  cs = before ++ after ∧ byteLength before = n
  := by
  induction cs generalizing n before after with
  | nil => cases n <;> simp_all [cut?]
  | cons c cs ih =>
    cases n with
    | zero => simp_all [cut?]
    | succ n =>
      simp only [cut?] at h
      split at h
      · cases h
      · obtain ⟨⟨a, b⟩, hab, he⟩ := Option.map_eq_some_iff.1 h
        cases he
        obtain ⟨rfl, hl⟩ := ih hab
        exact ⟨rfl, by simp only [byteLength_cons]; omega⟩

/-- A text can be cut after any of its beginnings. -/
theorem cut?_append (before after : List Char) :
  cut? (byteLength before) (before ++ after) = some (before, after)
  := by
  induction before with
  | nil => simp [cut?]
  | cons c before ih =>
    have hc := Char.utf8Size_pos c
    rw [byteLength_cons, List.cons_append]
    obtain ⟨k, hk⟩ : ∃ k, c.utf8Size + byteLength before = k + 1 :=
      ⟨_, (Nat.succ_pred_eq_of_pos (by omega)).symm⟩
    rw [hk, cut?, if_neg (by omega), show k + 1 - c.utf8Size = byteLength before by omega, ih]
    rfl

/-- The text from byte `start` up to byte `stop`, when both start a character. -/
def slice? (start stop : Nat) (cs : List Char) : Option (List Char) := do
  let (_, rest) ← cut? start cs
  let (middle, _) ← cut? (stop - start) rest
  return middle

/-- The text from byte `start` up to byte `stop`; empty where there is no such text. -/
def slice (source : String) (start stop : Nat) : String :=
  String.ofList ((slice? start stop source.toList).getD [])

/-! ### Lines and columns -/

/-- A line and a column, both counted from 1. -/
structure Position where
  line : Nat
  column : Nat
  deriving DecidableEq, Repr

/-- The position of what follows a character that stands at `p`. -/
def Position.next (p : Position) (c : Char) : Position :=
  if c = '\n' then ⟨p.line + 1, 1⟩ else ⟨p.line, p.column + c.utf8Size⟩

/-- The position `n` bytes into a text that starts at `p`. -/
def positionFrom (p : Position) : Nat → List Char → Position
  | _, [] => p
  | n, c :: cs => if c.utf8Size ≤ n then positionFrom (p.next c) (n - c.utf8Size) cs else p

/-- The position of byte `n` of a text. -/
def positionAt (n : Nat) (cs : List Char) : Position :=
  positionFrom ⟨1, 1⟩ n cs

theorem positionFrom_append (p : Position) (before after : List Char) :
  positionFrom p (byteLength before) (before ++ after) = before.foldl Position.next p
  := by
  induction before generalizing p with
  | nil =>
    cases after with
    | nil => rfl
    | cons c after =>
      have := Char.utf8Size_pos c
      rw [List.nil_append, positionFrom, if_neg (by simp only [byteLength_nil]; omega)]
      rfl
  | cons c before ih =>
    rw [List.cons_append, positionFrom, byteLength_cons, if_pos (by omega),
      Nat.add_sub_cancel_left, ih]
    rfl

end MutationTesting.Text
