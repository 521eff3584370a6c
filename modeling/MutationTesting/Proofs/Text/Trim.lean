import Mathlib.Data.List.DropRight
import Mathlib.Tactic.Common
import MutationTesting.Proofs.Text.Line
import MutationTesting.Text.Blank

/-!
# Trimming

A text without the blanks at its end is a beginning of the text, and what is left of a text
that starts with no blank starts with the same character. The first line of a text, as
`lines` gives it, differs from the beginning of the text only in blanks at its end.
-/

namespace MutationTesting.Text

/-! ### Blanks at the end -/

theorem trimEnd_isPrefix (cs : List Char) :
  trimEnd cs <+: cs
  := List.rdropWhile_prefix isBlank cs

theorem trimEnd_concat {c : Char} (h : isBlank c = true) (cs : List Char) :
  trimEnd (cs ++ [c]) = trimEnd cs
  := List.rdropWhile_concat_pos isBlank cs c h

theorem trimEnd_cons {c : Char} (h : isBlank c = false) (cs : List Char) :
  trimEnd (c :: cs) = c :: trimEnd cs
  := by
  have hlast : [c].dropWhile isBlank = [c] := by
    rw [List.dropWhile_cons_of_neg]
    rw [h]
    simp
  rw [trimEnd, List.reverse_cons, List.dropWhile_append, hlast]
  split
  · next hempty =>
    rw [trimEnd, List.isEmpty_iff.mp hempty]
    rfl
  · rw [List.reverse_append, trimEnd]
    rfl

/-- Trimming a text that starts with no blank leaves a beginning of it that is not empty. -/
theorem trim_trimEnd_cons {c : Char} (h : isBlank c = false) (cs : List Char) :
  trim (trimEnd (c :: cs)) <+: c :: cs ∧ trim (trimEnd (c :: cs)) ≠ []
  := by
  have htrim : trim (trimEnd (c :: cs)) = c :: trimEnd (trimEnd cs) := by
    rw [trimEnd_cons h, trim, trimStart, List.dropWhile_cons_of_neg, trimEnd_cons h]
    rw [h]
    simp
  rw [htrim]
  constructor
  · rw [List.cons_prefix_cons]
    use rfl
    exact (trimEnd_isPrefix (trimEnd cs)).trans (trimEnd_isPrefix cs)
  · apply List.cons_ne_nil

/-! ### Blanks at the start -/

/-- What follows the blanks that a text starts with may change, if it still starts with no
blank. -/
theorem indent_indent_append {c : Char} (h : isBlank c = false) (cs rest : List Char) :
  indent (indent cs ++ c :: rest) = indent cs
  := by
  have hblank : ∀ a ∈ indent cs, isBlank a = true := fun a ha => List.mem_takeWhile_imp ha
  rw [indent, List.takeWhile_append_of_pos hblank, List.takeWhile_cons_of_neg (by simp [h]),
    List.append_nil]

theorem trimStart_indent_append {c : Char} (h : isBlank c = false) (cs rest : List Char) :
  trimStart (indent cs ++ c :: rest) = c :: rest
  := by
  have hblank : ∀ a ∈ indent cs, isBlank a = true := fun a ha => List.mem_takeWhile_imp ha
  rw [trimStart, List.dropWhile_append_of_pos hblank, List.dropWhile_cons_of_neg (by simp [h])]

/-! ### Blanks around a text -/

/-- Trimming takes blanks away at both ends. -/
theorem exists_trim (cs : List Char) :
  ∃ front back, cs = front ++ trim cs ++ back
    ∧ (∀ c ∈ front, isBlank c = true) ∧ ∀ c ∈ back, isBlank c = true
  := by
  have hback : ∀ c ∈ ((trimStart cs).rtakeWhile isBlank), isBlank c = true :=
    fun c hc => List.mem_rtakeWhile_imp hc
  use indent cs, (trimStart cs).rtakeWhile isBlank
  constructor
  · have hstart : trim cs ++ (trimStart cs).rtakeWhile isBlank = trimStart cs :=
      List.rdropWhile_append_rtakeWhile
    rw [List.append_assoc, hstart, indent_append_trimStart]
  · exact ⟨fun c hc => List.mem_takeWhile_imp hc, hback⟩

/-- A text without blanks is what trimming leaves of it with blanks around it. -/
theorem trim_append {front core back : List Char} (hfront : ∀ c ∈ front, isBlank c = true)
    (hcore : ∀ c ∈ core, isBlank c = false) (hback : ∀ c ∈ back, isBlank c = true) :
  trim (front ++ core ++ back) = core
  := by
  have hstart : trimStart (front ++ core ++ back) = trimStart (core ++ back) := by
    rw [trimStart, List.append_assoc, List.dropWhile_append_of_pos hfront]
    rfl
  rw [trim, hstart]
  cases core with
  | nil =>
    have hnil : trimStart back = [] := List.dropWhile_eq_nil_iff.mpr hback
    rw [List.nil_append, hnil]
    rfl
  | cons c core =>
    have hend : trimEnd (c :: core) = c :: core := by
      apply List.rdropWhile_eq_self_iff.mpr
      intro hne
      rw [hcore _ (List.getLast_mem hne)]
      simp
    rw [trimStart, List.cons_append,
      List.dropWhile_cons_of_neg (by simp [hcore c List.mem_cons_self]), ← List.cons_append,
      trimEnd, List.reverse_append, List.dropWhile_append_of_pos (by simpa using hback)]
    apply hend

/-! ### The first line -/

/-- The first line of a text that starts with no blank, which is what stands before the first
newline up to blanks at the end. -/
theorem exists_firstLine {text : String} {c : Char} {cs : List Char}
    (htext : text.toList = c :: cs) (hc : isBlank c = false) :
  ∃ line after, text.toList = c :: line ++ after ∧ '\n' ∉ c :: line
    ∧ trimEnd ((lines text).headD "").toList = trimEnd (c :: line)
  := by
  have hnewline : c ≠ '\n' := by
    rintro rfl
    contradiction
  obtain ⟨line, after, rfl, hline, hends⟩ := exists_first_line cs
  have hunbroken : '\n' ∉ c :: line := by
    simp [hline, hnewline.symm]
  use line, after, htext, hunbroken
  obtain rfl | ⟨below, rfl⟩ := hends
  · rw [lines, htext, List.append_nil, splitLines_of_not_mem hunbroken]
    simp [Option.filter]
  · rw [lines, htext, ← List.cons_append, splitLines_append_newline,
      splitLines_of_not_mem hunbroken, List.singleton_append,
      List.dropLast_cons_of_ne_nil (splitLines_ne_nil below)]
    simp only [List.map_cons, List.cons_append, List.headD_cons, String.toList_ofList]
    split
    · next hreturn =>
      rw [beq_iff_eq, List.getLast?_eq_some_iff] at hreturn
      obtain ⟨front, hfront⟩ := hreturn
      rw [hfront, List.dropLast_concat, trimEnd_concat]
      rfl
    · rfl

end MutationTesting.Text
