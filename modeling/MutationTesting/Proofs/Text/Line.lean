import Mathlib.Data.List.Induction
import Mathlib.Tactic.Common
import MutationTesting.Proofs.Text.Splice
import MutationTesting.Text.Lines

/-!
# Lines and positions

`HasLine` says what line `n` of a text is and what stands before and after it. Such a line
is the one at index `n - 1` of `splitLines`, and changing it there and joining the lines
changes nothing else. The position of an offset names the line that the offset is on and
the bytes before it on that line, grows with the offset, and determines it.
-/

namespace MutationTesting.Text

/-! ### The lines of a text -/

theorem splitLines_of_not_mem {cs : List Char} (h : '\n' ∉ cs) :
  splitLines cs = [cs]
  := by
  induction cs with
  | nil => rfl
  | cons c cs ih =>
    rw [List.mem_cons, not_or] at h
    obtain ⟨hc, hcs⟩ := h
    rw [splitLines, if_neg (Ne.symm hc), ih hcs]

/-- A newline parts the lines of a text. -/
theorem splitLines_append_newline (xs ys : List Char) :
  splitLines (xs ++ '\n' :: ys) = splitLines xs ++ splitLines ys
  := by
  induction xs with
  | nil => simp [splitLines]
  | cons x xs ih =>
    simp only [List.cons_append, splitLines, ih]
    split
    · rfl
    · cases hxs : splitLines xs with
      | nil => exact absurd hxs (splitLines_ne_nil xs)
      | cons line lines => rfl

theorem length_splitLines (cs : List Char) :
  (splitLines cs).length = cs.count '\n' + 1
  := by
  induction cs with
  | nil => rfl
  | cons c cs ih =>
    simp only [splitLines]
    split
    · next hc => simp [hc, ih]
    · next hc =>
      rw [List.count_cons_of_ne hc]
      cases hcs : splitLines cs with
      | nil => exact absurd hcs (splitLines_ne_nil cs)
      | cons line lines => simpa [hcs] using ih

theorem joinLines_append {above below : List (List Char)} (habove : above ≠ [])
    (hbelow : below ≠ []) :
  joinLines (above ++ below) = joinLines above ++ '\n' :: joinLines below
  := by
  induction above with
  | nil => contradiction
  | cons line above ih =>
    cases above with
    | nil =>
      obtain ⟨next, below, rfl⟩ := List.exists_cons_of_ne_nil hbelow
      rfl
    | cons next above =>
      simp only [List.cons_append, joinLines] at ih ⊢
      rw [ih (List.cons_ne_nil next above)]
      simp

/-- Every text starts with a part of a line. -/
theorem exists_first_line (cs : List Char) :
  ∃ line after, cs = line ++ after ∧ '\n' ∉ line
    ∧ (after = [] ∨ ∃ below, after = '\n' :: below)
  := by
  by_cases h : '\n' ∈ cs
  · obtain ⟨line, below, rfl, hline⟩ := List.eq_append_cons_of_mem h
    exact ⟨line, '\n' :: below, rfl, hline, Or.inr ⟨below, rfl⟩⟩
  · exact ⟨cs, [], by simp, h, Or.inl rfl⟩

/-- Line `n` of a text, counted from 1, with all that stands before and after it. -/
structure HasLine (cs : List Char) (n : Nat) (before line after : List Char) : Prop where
  parts : cs = before ++ line ++ after
  starts : before = [] ∨ ∃ above, before = above ++ ['\n']
  number : before.count '\n' + 1 = n
  unbroken : '\n' ∉ line
  ends : after = [] ∨ ∃ below, after = '\n' :: below

/-- A line at the start of a text and the lines below it, which stay what they are when that
line changes. -/
theorem splitLines_append_of_ends {line after : List Char} (hline : '\n' ∉ line)
    (hends : after = [] ∨ ∃ below, after = '\n' :: below) :
  ∃ below, splitLines (line ++ after) = line :: below
    ∧ ∀ text, joinLines (text :: below) = text ++ after
  := by
  obtain rfl | ⟨rest, rfl⟩ := hends
  · use []
    simp [splitLines_of_not_mem hline, joinLines]
  · use splitLines rest
    constructor
    · rw [splitLines_append_newline, splitLines_of_not_mem hline, List.singleton_append]
    · intro text
      rw [← List.singleton_append,
        joinLines_append (List.cons_ne_nil text []) (splitLines_ne_nil rest),
        joinLines_splitLines, joinLines]

/-- The lines above and below line `n`, which stay what they are when that line changes. -/
theorem HasLine.splitLines_eq {cs before line after : List Char} {n : Nat}
    (h : HasLine cs n before line after) :
  ∃ above below,
    splitLines cs = above ++ line :: below ∧ above.length + 1 = n
      ∧ ∀ text, joinLines (above ++ text :: below) = before ++ text ++ after
  := by
  obtain ⟨rfl, hstarts, rfl, hline, hends⟩ := h
  obtain ⟨below, hsplit, hjoin⟩ := splitLines_append_of_ends hline hends
  obtain rfl | ⟨above, rfl⟩ := hstarts
  · use [], below
    simp [hsplit, hjoin]
  · use splitLines above, below
    refine ⟨?_, ?_, ?_⟩
    · have hparts : above ++ ['\n'] ++ line ++ after = above ++ '\n' :: (line ++ after) := by
        simp
      rw [hparts, splitLines_append_newline, hsplit]
    · rw [length_splitLines, List.count_append, List.count_singleton_self]
    · intro text
      rw [joinLines_append (splitLines_ne_nil above) (List.cons_ne_nil text below), hjoin,
        joinLines_splitLines]
      simp

/-- A line counted from 0 is one of the text. -/
theorem exists_hasLine_of_getElem? {cs line : List Char} {i : Nat}
    (h : (splitLines cs)[i]? = some line) :
  ∃ before after, HasLine cs (i + 1) before line after
  := by
  induction i generalizing cs with
  | zero =>
    obtain ⟨first, after, rfl, hfirst, hends⟩ := exists_first_line cs
    obtain ⟨below, hsplit, -⟩ := splitLines_append_of_ends hfirst hends
    obtain rfl : first = line := by simpa [hsplit] using h
    use [], after
    exact ⟨rfl, Or.inl rfl, rfl, hfirst, hends⟩
  | succ i ih =>
    obtain ⟨first, after, rfl, hfirst, rfl | ⟨below, rfl⟩⟩ := exists_first_line cs
    · simp [splitLines_of_not_mem hfirst] at h
    · rw [splitLines_append_newline, splitLines_of_not_mem hfirst, List.singleton_append,
        List.getElem?_cons_succ] at h
      obtain ⟨before, after, rfl, hstarts, hnumber, hline, hends⟩ := ih h
      use first ++ '\n' :: before, after
      refine ⟨by simp, Or.inr ?_, ?_, hline, hends⟩
      · obtain rfl | ⟨above, rfl⟩ := hstarts
        · use first
        · use first ++ '\n' :: above
          simp
      · rw [List.count_append, List.count_eq_zero.mpr hfirst, List.count_cons_self, ← hnumber]
        omega

/-- A text has one line more than it has newlines. -/
theorem exists_hasLine_iff {cs : List Char} {n : Nat} :
  (∃ before line after, HasLine cs n before line after) ↔
    1 ≤ n ∧ n ≤ cs.count '\n' + 1
  := by
  constructor
  · rintro ⟨before, line, after, hline⟩
    rw [← hline.number, hline.parts, List.count_append, List.count_append]
    omega
  · rintro ⟨hpositive, hle⟩
    have hlength : n - 1 < (splitLines cs).length := by
      rw [length_splitLines]
      omega
    obtain ⟨before, after, hline⟩ :=
      exists_hasLine_of_getElem? (List.getElem?_eq_getElem hlength)
    rw [Nat.sub_add_cancel hpositive] at hline
    exact ⟨before, (splitLines cs)[n - 1], after, hline⟩

/-- Another text without a newline may stand in the place of a line. -/
theorem HasLine.replace {cs before line after text : List Char} {n : Nat}
    (h : HasLine cs n before line after) (htext : '\n' ∉ text) :
  HasLine (before ++ text ++ after) n before text after
  := ⟨rfl, h.starts, h.number, htext, h.ends⟩

/-! ### Positions -/

/-- A text without a newline moves a position by its bytes to the right. -/
theorem foldl_next_of_not_mem {cs : List Char} (h : '\n' ∉ cs) (p : Position) :
  cs.foldl Position.next p = ⟨p.line, p.column + byteLength cs⟩
  := by
  induction cs generalizing p with
  | nil => rfl
  | cons c cs ih =>
    rw [List.mem_cons, not_or] at h
    obtain ⟨hc, hcs⟩ := h
    rw [List.foldl_cons, ih hcs, Position.next, if_neg (Ne.symm hc), byteLength_cons,
      Nat.add_assoc]

theorem line_foldl_next (cs : List Char) (p : Position) :
  (cs.foldl Position.next p).line = p.line + cs.count '\n'
  := by
  induction cs generalizing p with
  | nil => rfl
  | cons c cs ih =>
    rw [List.foldl_cons, ih, Position.next, List.count_cons]
    split <;> simp_all +arith

/-- The position after a text that ends where a line starts. -/
theorem foldl_next_of_starts {before : List Char}
    (h : before = [] ∨ ∃ above, before = above ++ ['\n']) :
  before.foldl Position.next ⟨1, 1⟩ = ⟨before.count '\n' + 1, 1⟩
  := by
  obtain rfl | ⟨above, rfl⟩ := h
  · rfl
  · have hline := line_foldl_next above ⟨1, 1⟩
    simp [Position.next, hline, Nat.add_comm]

/-- Every text ends in a part of a line. -/
theorem exists_last_line (cs : List Char) :
  ∃ before line, cs = before ++ line ∧ (before = [] ∨ ∃ above, before = above ++ ['\n'])
    ∧ '\n' ∉ line
  := by
  induction cs using List.reverseRecOn with
  | nil => exact ⟨[], [], rfl, Or.inl rfl, List.not_mem_nil⟩
  | append_singleton cs c ih =>
    by_cases hc : c = '\n'
    · subst hc
      exact ⟨cs ++ ['\n'], [], by simp, Or.inr ⟨cs, rfl⟩, List.not_mem_nil⟩
    · obtain ⟨before, line, rfl, hstarts, hline⟩ := ih
      use before, line ++ [c]
      simp_all [eq_comm]

/-- The line of a fragment without a newline, and where it starts on that line. -/
theorem exists_hasLine (before fragment after : List Char) (h : '\n' ∉ fragment) :
  ∃ above left right below,
    before = above ++ left ∧ after = right ++ below
      ∧ HasLine (before ++ fragment ++ after)
          (positionAt (byteLength before) (before ++ fragment ++ after)).line
          above (left ++ fragment ++ right) below
      ∧ (positionAt (byteLength before) (before ++ fragment ++ after)).column
          = byteLength left + 1
  := by
  obtain ⟨above, left, rfl, hstarts, hleft⟩ := exists_last_line before
  obtain ⟨right, below, rfl, hright, hends⟩ := exists_first_line after
  have hposition : positionAt (byteLength (above ++ left))
        (above ++ left ++ fragment ++ (right ++ below))
      = ⟨above.count '\n' + 1, 1 + byteLength left⟩ := by
    rw [List.append_assoc _ fragment, positionAt, positionFrom_append, List.foldl_append,
      foldl_next_of_starts hstarts, foldl_next_of_not_mem hleft]
  rw [hposition]
  use above, left, right, below, rfl, rfl
  constructor
  · exact ⟨by simp, hstarts, rfl, by simp [hleft, h, hright], hends⟩
  · apply Nat.add_comm

theorem positionAt_line_le {start stop : Nat} {cs : List Char} (hstart : IsBoundary start cs)
    (hstop : IsBoundary stop cs) (hle : start ≤ stop) :
  (positionAt start cs).line ≤ (positionAt stop cs).line
  := by
  obtain ⟨before, middle, after, rfl, rfl, rfl⟩ := hstart.exists_parts hstop hle
  rw [← byteLength_append, positionAt, positionAt, positionFrom_append, List.append_assoc,
    positionFrom_append, List.foldl_append, line_foldl_next middle]
  apply Nat.le_add_right

private theorem eq_of_positionAt_eq_of_le {start stop : Nat} {cs : List Char}
    (hstart : IsBoundary start cs) (hstop : IsBoundary stop cs) (hle : start ≤ stop)
    (h : positionAt start cs = positionAt stop cs) :
  start = stop
  := by
  obtain ⟨before, middle, after, rfl, rfl, rfl⟩ := hstart.exists_parts hstop hle
  rw [← byteLength_append, positionAt, positionAt, positionFrom_append, List.append_assoc,
    positionFrom_append, List.foldl_append] at h
  have hline := congrArg Position.line h
  rw [line_foldl_next middle, Nat.left_eq_add, List.count_eq_zero] at hline
  have hcolumn := congrArg Position.column h
  rw [foldl_next_of_not_mem hline, Nat.left_eq_add] at hcolumn
  rw [hcolumn, Nat.add_zero]

/-- No two boundaries of a text have one position. -/
theorem IsBoundary.eq_of_positionAt_eq {m n : Nat} {cs : List Char} (hm : IsBoundary m cs)
    (hn : IsBoundary n cs) (h : positionAt m cs = positionAt n cs) :
  m = n
  := by
  obtain hle | hle := Nat.le_total m n
  · apply eq_of_positionAt_eq_of_le hm hn hle h
  · exact (eq_of_positionAt_eq_of_le hn hm hle h.symm).symm

end MutationTesting.Text
