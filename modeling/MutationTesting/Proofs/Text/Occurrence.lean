import Mathlib.Data.List.Basic
import Mathlib.Tactic.Common
import MutationTesting.Proofs.Text.Splice
import MutationTesting.Text.Search

/-!
# Occurrences of a needle

A needle occurs in a text when the text is the needle between two others, and the two are
determined by the bytes of the first. `firstSplit?` finds the occurrence that has the fewest
bytes before it, if there is one. `StandsAt` says that there is one at a given column, and
`OccursOnce` that there is no other one.
-/

namespace MutationTesting.Text

/-- A text is parted around a needle in one way only where a part starts. -/
theorem eq_of_append_eq {needle before after before' after' : List Char}
    (h : before ++ needle ++ after = before' ++ needle ++ after')
    (hlength : byteLength before = byteLength before') :
  before = before' ∧ after = after'
  := by
  rw [List.append_assoc, List.append_assoc] at h
  obtain ⟨rfl, hrest⟩ := append_inj_of_byteLength_eq h hlength
  exact ⟨rfl, List.append_cancel_left hrest⟩

/-! ### The first occurrence -/

/-- The search for a needle ends at an occurrence of it or before. -/
theorem exists_firstSplit? (before needle after : List Char) :
  ∃ front rest, firstSplit? needle (before ++ needle ++ after) = some (front, rest)
    ∧ byteLength front ≤ byteLength before
  := by
  induction before with
  | nil =>
    have hstart : afterStart? needle (needle ++ after) = some after :=
      afterStart?_eq_some_iff.mpr rfl
    use [], after
    rw [List.nil_append]
    cases hcs : needle ++ after with
    | nil =>
      rw [hcs] at hstart
      rw [firstSplit?, hstart]
      exact ⟨rfl, Nat.le_refl _⟩
    | cons c cs =>
      rw [hcs] at hstart
      rw [firstSplit?, hstart]
      exact ⟨rfl, Nat.le_refl _⟩
  | cons c before ih =>
    obtain ⟨front, rest, hsplit, hle⟩ := ih
    rw [List.cons_append, List.cons_append, firstSplit?]
    split
    · next rest' _ => exact ⟨[], rest', rfl, Nat.zero_le _⟩
    · use c :: front, rest
      rw [hsplit, byteLength_cons, byteLength_cons]
      exact ⟨rfl, Nat.add_le_add_left hle _⟩

/-- The search for a needle finds the occurrence that has the fewest bytes before it. -/
theorem firstSplit?_eq_some_iff {needle cs before after : List Char} :
  firstSplit? needle cs = some (before, after) ↔
    cs = before ++ needle ++ after
      ∧ ∀ before' after', cs = before' ++ needle ++ after' →
          byteLength before ≤ byteLength before'
  := by
  constructor
  · intro h
    use eq_append_of_firstSplit? h
    rintro before' after' rfl
    obtain ⟨front, rest, hsplit, hle⟩ := exists_firstSplit? before' needle after'
    obtain ⟨rfl, rfl⟩ := Prod.mk.inj (Option.some.inj (hsplit.symm.trans h))
    exact hle
  · rintro ⟨rfl, hleast⟩
    obtain ⟨front, rest, hsplit, hle⟩ := exists_firstSplit? before needle after
    have hparts := eq_append_of_firstSplit? hsplit
    obtain ⟨rfl, rfl⟩ := eq_of_append_eq hparts
      (Nat.le_antisymm (hleast front rest hparts) hle)
    exact hsplit

theorem isSome_firstSplit?_iff {needle cs : List Char} :
  (firstSplit? needle cs).isSome = true ↔ needle <:+: cs
  := by
  constructor
  · intro h
    obtain ⟨⟨before, after⟩, hsplit⟩ := Option.isSome_iff_exists.mp h
    exact ⟨before, after, (eq_append_of_firstSplit? hsplit).symm⟩
  · rintro ⟨before, after, rfl⟩
    obtain ⟨front, rest, hsplit, -⟩ := exists_firstSplit? before needle after
    rw [hsplit, Option.isSome_some]

theorem occursIn_iff {needle cs : List Char} :
  occursIn needle cs = true ↔ needle <:+: cs
  := isSome_firstSplit?_iff

theorem occursIn_append (before needle after : List Char) :
  occursIn needle (before ++ needle ++ after) = true
  := occursIn_iff.mpr ⟨before, after, rfl⟩

/-- A needle without a certain character stands on one side of that character. -/
theorem isInfix_or_isInfix_of_append_cons {needle before after : List Char} {c : Char}
    (hc : c ∉ needle) (h : needle <:+: before ++ c :: after) :
  needle <:+: before ∨ needle <:+: after
  := by
  obtain ⟨front, rest, hparts⟩ := h
  obtain ⟨middle, hbefore, -⟩ | ⟨middle, hmiddle, hafter⟩ := List.append_eq_append_iff.mp hparts
  · exact .inl ⟨front, middle, hbefore.symm⟩
  · obtain ⟨left, hbefore, hneedle⟩ | ⟨left, -, hneedle⟩ := List.append_eq_append_iff.mp hmiddle
    · cases middle with
      | nil =>
        rw [List.append_nil] at hneedle
        rw [hneedle, hbefore]
        exact .inl ⟨front, [], List.append_nil _⟩
      | cons d middle =>
        -- The needle would reach over the character.
        rw [List.cons_append, List.cons.injEq] at hafter
        rw [hneedle, hafter.1] at hc
        simp at hc
    · rw [hneedle] at hafter
      cases left with
      | nil =>
        cases needle with
        | nil => exact .inl List.nil_infix
        | cons d needle =>
          rw [List.nil_append, List.cons_append, List.cons.injEq] at hafter
          rw [hafter.1] at hc
          simp at hc
      | cons d left =>
        rw [List.cons_append, List.cons_append, List.cons.injEq] at hafter
        exact .inr ⟨left, rest, hafter.2.symm⟩

/-! ### Single occurrences -/

/-- The needle starts at a column of a text, counted from 1 in bytes. -/
def StandsAt (column : Nat) (needle cs : List Char) : Prop :=
  ∃ before after, cs = before ++ needle ++ after ∧ byteLength before + 1 = column

/-- The needle occurs in a text between two others, and nowhere else. -/
structure OccursOnce (needle cs before after : List Char) : Prop where
  parts : cs = before ++ needle ++ after
  once : ∀ before' after', cs = before' ++ needle ++ after' → before' = before

/-- What stands around a needle that occurs once. -/
theorem OccursOnce.eq {needle cs before after before' after' : List Char}
    (h : OccursOnce needle cs before after) (hparts : cs = before' ++ needle ++ after') :
  before' = before ∧ after' = after
  := by
  obtain rfl := h.once before' after' hparts
  exact ⟨rfl, List.append_cancel_left (hparts.symm.trans h.parts)⟩

/-- A needle of one character occurs once if the character does. -/
theorem occursOnce_of_eq_singleton {needle cs before after : List Char} (c : Char)
    (hneedle : needle = [c]) (hparts : cs = before ++ needle ++ after) (hbefore : c ∉ before)
    (hafter : c ∉ after) :
  OccursOnce needle cs before after
  := by
  subst hneedle hparts
  use rfl
  intro before' after' hparts
  rw [List.append_assoc, List.append_assoc, List.singleton_append, List.singleton_append] at hparts
  exact ((List.append_cons_inj_of_notMem hbefore hafter).mp hparts).1.symm

end MutationTesting.Text
