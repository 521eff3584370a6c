import Mathlib.Tactic.Common
import MutationTesting.Text.CharSet

/-!
# Sets of characters

What is left of a text after a bracket expression is shorter than the text was, as it is after
each of its items (`length_ofBrackets?_lt`). So the fuel never runs out that is the number of
characters.
-/

namespace MutationTesting.Text.CharSet

variable {set : CharSet} {escapes first : Bool} {fuel : Nat} {mark negation : Char}
  {cs rest inside : List Char} {item : List (Char × Char) ⊕ Char} {ranges : List (Char × Char)}

theorem contains_single_iff {c d : Char} :
  (single c).contains d = true ↔ d = c
  := by
  simp only [contains, single, inRanges, List.any_cons, List.any_nil, Bool.or_false]
  simp
  constructor
  · rintro ⟨h, h'⟩
    apply Char.le_antisymm h' h
  · rintro rfl
    simp

theorem length_upTo?_lt (h : upTo? mark cs = some (inside, rest)) :
  rest.length < cs.length
  := by
  fun_induction upTo? mark cs generalizing inside with
  | case1 a b cs =>
    cases h
    simp only [List.length_cons]
    omega
  | case2 a b cs _ ih =>
    obtain ⟨⟨inside', rest'⟩, hrest, heq⟩ := Option.map_eq_some_iff.mp h
    cases heq
    have hlength := ih hrest
    simp only [List.length_cons] at hlength ⊢
    omega
  | case3 => cases h

theorem length_item?_lt (h : item? escapes cs = .ok (item, rest)) :
  rest.length < cs.length
  := by
  unfold item? at h
  split at h
  · split at h
    · cases h
      simp
    · next hupTo =>
      have hlength := length_upTo?_lt hupTo
      split at h
      · cases h
        simp only [List.length_cons]
        omega
      · cases h
  · cases h
    simp only [List.length_cons]
    omega
  · cases h
    simp only [List.length_cons]
    omega
  · split at h
    · cases h
      simp only [List.length_cons]
      omega
    · cases h
      simp
  · cases h
    simp
  · cases h

theorem length_items?_lt (h : items? escapes fuel first cs = .ok (ranges, rest)) :
  rest.length < cs.length
  := by
  induction fuel generalizing first cs ranges rest with
  | zero => cases h
  | succ fuel ih =>
    cases cs with
    | nil => cases h
    | cons c cs =>
      rw [items?.eq_def] at h
      simp only [bind, Except.bind] at h
      split at h
      · next hclosed =>
        cases h
        cases hclosed
        simp
      · split at h
        · cases h
        · next hitem =>
          have hlength := length_item?_lt hitem
          -- What is read after the item is shorter than what is left by it.
          have hafter : ∀ {cs' : List Char} {read}, cs'.length < (c :: cs).length →
              items? escapes fuel false cs' = .ok read → read.2.length < (c :: cs).length :=
            fun hlt hread => Nat.lt_trans (ih hread) hlt
          split at h
          · split at h
            · cases h
            · next hmore =>
              cases h
              apply hafter hlength hmore
          · next hrest =>
            rw [hrest] at hlength
            split at h
            · split at h
              · cases h
              · next hmore =>
                cases h
                apply hafter hlength hmore
            · split at h
              · cases h
              · next hlast =>
                have hlength' := length_item?_lt hlast
                split at h
                · cases h
                · split at h
                  · cases h
                  · split at h
                    · cases h
                    · next hmore =>
                      cases h
                      apply hafter _ hmore
                      simp only [List.length_cons] at *
                      omega
          · split at h
            · cases h
            · next hmore =>
              cases h
              apply hafter hlength hmore

/-- A bracket expression ends within a text. -/
theorem length_ofBrackets?_lt (h : ofBrackets? negation escapes cs = .ok (set, rest)) :
  rest.length < cs.length
  := by
  rw [ofBrackets?.eq_def] at h
  simp only [bind, Except.bind] at h
  split at h
  · cases h
  · next hitems =>
    cases h
    have hlength := length_items?_lt hitems
    apply Nat.lt_of_lt_of_le hlength
    cases cs with
    | nil => simp
    | cons c cs =>
      dsimp only
      split <;> simp

end MutationTesting.Text.CharSet
