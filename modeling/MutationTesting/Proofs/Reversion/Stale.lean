import Mathlib.Tactic.Common
import MutationTesting.Proofs.Reversion

/-!
# Undoing a substitution whose position is stale

A fragment that occurs once on its line is replaced there whatever column the mutation has. To
undo this, the replacement is looked for on the changed line, where it need not occur once: it
may stand at the stale column, or before the place of the fragment, or be empty. The source
comes back exactly if the replacement is found in the place of the fragment
(`Mutation.revert_once_iff`), which is not always so (`Mutation.not_reverted`).
-/

namespace MutationTesting.Mutation

/-- The place of a fragment that occurs once on its line is the one where it is replaced. -/
theorem eq_of_apply {parser : Parser} {m : Mutation} {source changed : String}
    (hkind : m.kind.strategy = .substitute) {before line after left right : List Char}
    (hline : Text.HasLine source.toList m.line before line after)
    (honce : Text.OccursOnce m.fragment.toList line left right)
    (happly : m.apply parser source = .ok changed) :
  changed.toList = before ++ (left ++ m.replacement.toList ++ right) ++ after
  := by
  rw [apply, hkind] at happly
  obtain ⟨left', right', hplaced, rfl⟩ := (Planting.substitute_eq_ok_iff hline).mp happly
  obtain ⟨rfl, rfl⟩ := honce.eq hplaced.parts
  apply String.toList_ofList

/-- When a fragment that occurs once on its line has been replaced by a text of one line, undoing
this gives the source back exactly if the replacement is found on the changed line in the place
of the fragment. -/
theorem revert_once_iff {parser : Parser} {m : Mutation} {source changed : String}
    (hkind : m.kind.strategy = .substitute) {before line after left right : List Char}
    (hline : Text.HasLine source.toList m.line before line after)
    (honce : Text.OccursOnce m.fragment.toList line left right)
    (hunbroken : '\n' ∉ m.replacement.toList)
    (happly : m.apply parser source = .ok changed) :
  m.revert changed = some (.ok source) ↔
    Planting.Placed m.column m.replacement.toList (left ++ m.replacement.toList ++ right) left
      right
  := by
  have hchanged := eq_of_apply hkind hline honce happly
  have hline' : Text.HasLine changed.toList m.line before
      (left ++ m.replacement.toList ++ right) after := by
    rw [hchanged]
    apply hline.replace
    have hfragment := hline.unbroken
    rw [honce.parts] at hfragment
    simp_all
  rw [revert, hkind]
  dsimp only
  rw [Option.some_inj, Planting.substitute_eq_ok_iff hline']
  constructor
  · rintro ⟨left', right', hplaced, hsource⟩
    -- the fragment is back, so that its place is the only one where it occurs
    have hback : line = left' ++ m.fragment.toList ++ right' := by
      have hparts := hline.parts
      rw [hsource, String.toList_ofList, List.append_left_inj, List.append_right_inj] at hparts
      exact hparts.symm
    obtain ⟨rfl, rfl⟩ := honce.eq hback
    exact hplaced
  · intro hplaced
    use left, right, hplaced
    rw [← honce.parts, ← hline.parts, String.ofList_toList]

/-- A relational operator is replaced and brought back though the mutation has the column where
its line starts. -/
theorem revert_once_iff_stale :
  let m : Mutation := ⟨"", "a.go", 2, 1, .relationalOperator, "<", "<=", "", .low⟩
  let parser : Parser := fun _ _ => .branching
  let source := "ß\na < b > c"
  let changed := "ß\na <= b > c"
  m.kind.strategy = .substitute
    ∧ Text.HasLine source.toList m.line "ß\n".toList "a < b > c".toList []
    ∧ Text.OccursOnce m.fragment.toList "a < b > c".toList "a ".toList " b > c".toList
    ∧ '\n' ∉ m.replacement.toList
    ∧ m.apply parser source = .ok changed
    ∧ m.revert changed = some (.ok source)
  := by
  intro m parser source changed
  have hline : Text.HasLine source.toList m.line "ß\n".toList "a < b > c".toList [] :=
    ⟨by decide, .inr ⟨"ß".toList, by decide⟩, by decide, by decide, .inl rfl⟩
  have honce : Text.OccursOnce m.fragment.toList "a < b > c".toList "a ".toList
      " b > c".toList :=
    Text.occursOnce_of_eq_singleton '<' (by decide) (by decide) (by decide) (by decide)
  have hunbroken : '\n' ∉ m.replacement.toList := by decide
  have happly : m.apply parser source = .ok changed := by decide +kernel
  refine ⟨rfl, hline, honce, hunbroken, happly, ?_⟩
  apply (revert_once_iff rfl hline honce hunbroken happly).mpr
  apply Planting.locate?_eq_some_iff.mp
  decide +kernel

/-- An operator that occurs once on its line is replaced by one that occurs before it. To undo
this by a stale column changes the other one. -/
theorem not_reverted :
  ¬∀ (parser : Parser) (m : Mutation) (source changed : String)
      (before line after left right : List Char), m.kind.strategy = .substitute →
    Text.HasLine source.toList m.line before line after →
    Text.OccursOnce m.fragment.toList line left right → '\n' ∉ m.replacement.toList →
    m.apply parser source = .ok changed → m.revert changed = some (.ok source)
  := by
  intro h
  let m : Mutation := ⟨"", "a.go", 1, 1, .relationalOperator, "<", ">", "", .low⟩
  have hline : Text.HasLine "a > b < c".toList m.line [] "a > b < c".toList [] :=
    ⟨by decide, .inl rfl, rfl, by decide, .inl rfl⟩
  have honce : Text.OccursOnce m.fragment.toList "a > b < c".toList "a > b ".toList
      " c".toList :=
    Text.occursOnce_of_eq_singleton '<' (by decide) (by decide) (by decide) (by decide)
  have hrevert := h (fun _ _ => .branching) m "a > b < c" "a > b > c" _ _ _ _ _ rfl hline honce
    (by decide) (by decide +kernel)
  revert hrevert
  decide +kernel

end MutationTesting.Mutation
