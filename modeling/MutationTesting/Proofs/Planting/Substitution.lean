import Mathlib.Tactic.Common
import MutationTesting.Proofs.Planting

/-!
# What substitution does to a text

`Placed` says where on a line a fragment is replaced: at its column if it stands there, and
else where it stands first. `locate?` finds that place (`locate?_eq_some_iff`), and there is
one if the fragment is `Findable`. So substitution puts the replacement in the place of the
fragment and leaves everything else as it is, and fails only if the line or the place is
missing (`substitute_exact`).
-/

namespace MutationTesting.Planting

/-! ### The place of a fragment -/

/-- The parts of a line before and after the place where a needle is looked for: at the column
if it stands there, else where it stands first. An empty needle is looked for at the column
only. -/
structure Placed (column : Nat) (needle line before after : List Char) : Prop where
  parts : line = before ++ needle ++ after
  atColumn : Text.StandsAt column needle line → Text.byteLength before + 1 = column
  first : ¬Text.StandsAt column needle line → needle ≠ [] ∧
    ∀ before' after', line = before' ++ needle ++ after' →
      Text.byteLength before ≤ Text.byteLength before'

/-- A needle stands at a column of a line, or it is not empty and stands anywhere on it. -/
def Findable (column : Nat) (needle line : List Char) : Prop :=
  Text.StandsAt column needle line ∨ needle ≠ [] ∧ needle <:+: line

variable {column : Nat} {needle line before after : List Char}

/-- A needle that stands at its column is replaced there. -/
theorem placed_atColumn (before needle after : List Char) :
  Placed (Text.byteLength before + 1) needle (before ++ needle ++ after) before after
  := by
  have hstands : Text.StandsAt (Text.byteLength before + 1) needle (before ++ needle ++ after) :=
    ⟨before, after, rfl, rfl⟩
  exact ⟨rfl, fun _ => rfl, absurd hstands⟩

theorem splitAtColumn?_eq_some_iff :
  splitAtColumn? column needle line = some (before, after) ↔
    line = before ++ needle ++ after ∧ Text.byteLength before + 1 = column
  := by
  constructor
  · intro h
    unfold splitAtColumn? at h
    split at h
    · cases h
    · next hcolumn =>
      simp only [Option.bind_eq_bind, Option.bind_eq_some_iff] at h
      obtain ⟨⟨front, rest⟩, hcut, after', hafter, hparts⟩ := h
      cases hparts
      obtain ⟨rfl, hlength⟩ := Text.eq_append_of_cut? hcut
      obtain rfl := Text.afterStart?_eq_some_iff.mp hafter
      rw [hlength, List.append_assoc]
      exact ⟨rfl, by omega⟩
  · rintro ⟨rfl, rfl⟩
    rw [splitAtColumn?, if_neg (Nat.succ_ne_zero _), Nat.add_sub_cancel, List.append_assoc,
      Text.cut?_append]
    simp [Text.afterStart?_eq_some_iff.mpr rfl]

theorem splitAtColumn?_eq_none_iff :
  splitAtColumn? column needle line = none ↔ ¬Text.StandsAt column needle line
  := by
  rw [Option.eq_none_iff_forall_ne_some, Prod.forall]
  simp only [ne_eq, splitAtColumn?_eq_some_iff, Text.StandsAt, not_exists]

/-- The needle is found at its place. -/
theorem locate?_eq_some_iff :
  locate? column needle line = some (before, after) ↔ Placed column needle line before after
  := by
  cases hsplit : splitAtColumn? column needle line with
  | some parts =>
    obtain ⟨front, rest⟩ := parts
    obtain ⟨rfl, rfl⟩ := splitAtColumn?_eq_some_iff.mp hsplit
    rw [locate?, hsplit]
    constructor
    · intro h
      obtain ⟨rfl, rfl⟩ := Prod.mk.inj (Option.some.inj h)
      apply placed_atColumn
    · intro h
      have hcolumn := h.atColumn ⟨front, rest, rfl, rfl⟩
      obtain ⟨rfl, rfl⟩ := Text.eq_of_append_eq h.parts (Nat.succ.inj hcolumn).symm
      rfl
  | none =>
    have hstands := splitAtColumn?_eq_none_iff.mp hsplit
    rw [locate?, hsplit]
    dsimp only
    split
    · next hempty =>
      constructor
      · intro h
        cases h
      · intro h
        exact absurd (List.isEmpty_iff.mp hempty) (h.first hstands).1
    · next hne =>
      rw [Text.firstSplit?_eq_some_iff]
      constructor
      · rintro ⟨hparts, hleast⟩
        exact ⟨hparts, fun h => absurd h hstands,
          fun _ => ⟨fun hempty => hne (List.isEmpty_iff.mpr hempty), hleast⟩⟩
      · intro h
        exact ⟨h.parts, (h.first hstands).2⟩

/-- A place is found if there is one. -/
theorem isSome_locate?_iff :
  (locate? column needle line).isSome = true ↔ Findable column needle line
  := by
  rw [locate?, Findable]
  cases hsplit : splitAtColumn? column needle line with
  | some parts =>
    obtain ⟨front, rest⟩ := parts
    have hstands : Text.StandsAt column needle line :=
      ⟨front, rest, splitAtColumn?_eq_some_iff.mp hsplit⟩
    simp [hstands]
  | none =>
    have hstands := splitAtColumn?_eq_none_iff.mp hsplit
    dsimp only
    split
    · next hempty => simp_all
    · next hne => simp_all [Text.isSome_firstSplit?_iff]

/-! ### Substitution -/

variable {source fragment replacement changed : String} {n : Nat} {text : List Char}

/-- On a line that the source has, the replacement is put in the place of the fragment. -/
theorem substitute_of_hasLine (h : Text.HasLine source.toList n before text after) :
  substitute source n column fragment replacement =
    match locate? column fragment.toList text with
    | some (left, right) =>
      .ok (String.ofList (before ++ (left ++ replacement.toList ++ right) ++ after))
    | none => .error (.anchorNotFound fragment n)
  := by
  rw [substitute, onLine_of_hasLine h]
  cases locate? column fragment.toList text with
  | some parts => rfl
  | none => rfl

theorem substitute_eq_ok_iff (h : Text.HasLine source.toList n before text after) :
  substitute source n column fragment replacement = .ok changed ↔
    ∃ left right, Placed column fragment.toList text left right
      ∧ changed = String.ofList (before ++ (left ++ replacement.toList ++ right) ++ after)
  := by
  rw [substitute_of_hasLine h]
  simp only [← locate?_eq_some_iff]
  cases locate? column fragment.toList text with
  | some parts =>
    constructor
    · intro h
      exact ⟨parts.1, parts.2, rfl, (Except.ok.inj h).symm⟩
    · rintro ⟨left, right, hparts, rfl⟩
      cases hparts
      rfl
  | none => simp

theorem exists_substitute_iff (h : Text.HasLine source.toList n before text after) :
  (∃ changed, substitute source n column fragment replacement = .ok changed) ↔
    Findable column fragment.toList text
  := by
  rw [substitute_of_hasLine h, ← isSome_locate?_iff]
  cases locate? column fragment.toList text with
  | some parts => simp
  | none => simp

theorem substitute_eq_absent_iff (h : Text.HasLine source.toList n before text after)
    {missing : String} {line : Nat} :
  substitute source n column fragment replacement = .error (.anchorNotFound missing line) ↔
    ¬Findable column fragment.toList text ∧ missing = fragment ∧ line = n
  := by
  rw [substitute_of_hasLine h, ← isSome_locate?_iff]
  cases locate? column fragment.toList text with
  | some parts => simp
  | none => simp [eq_comm]

/-- Substitution misses the line exactly if the source does not have it. -/
theorem substitute_eq_outOfRange_iff {line lines : Nat} :
  substitute source n column fragment replacement = .error (.lineOutOfRange line lines) ↔
    (n = 0 ∨ source.toList.count '\n' + 1 < n) ∧ line = n
      ∧ lines = source.toList.count '\n' + 1
  := by
  by_cases hrange : n = 0 ∨ source.toList.count '\n' + 1 < n
  · rw [substitute, onLine_of_outOfRange hrange]
    simp [hrange, eq_comm]
  · have hhas : 1 ≤ n ∧ n ≤ source.toList.count '\n' + 1 := by omega
    obtain ⟨before, text, after, hline⟩ := Text.exists_hasLine_iff.mpr hhas
    rw [substitute_of_hasLine hline]
    cases locate? column fragment.toList text with
    | some parts => simp [hrange]
    | none => simp [hrange]

/-- Only a fragment without a newline is ever replaced. -/
theorem newline_not_mem_of_substitute
    (h : substitute source n column fragment replacement = .ok changed) :
  '\n' ∉ fragment.toList
  := by
  obtain ⟨before, text, after, _, hline, -, -⟩ := exists_of_onLine h
  obtain ⟨left, right, hplaced, -⟩ := (substitute_eq_ok_iff hline).mp h
  have hunbroken := hline.unbroken
  rw [hplaced.parts] at hunbroken
  intro hnewline
  apply hunbroken
  simp [hnewline]

/-- A fragment is replaced where its position says that it stands. -/
theorem substitute_of_append (hsource : source.toList = before ++ fragment.toList ++ after)
    (hfragment : '\n' ∉ fragment.toList) {position : Text.Position}
    (hposition : position = Text.positionAt (Text.byteLength before) source.toList)
    (replacement : String) :
  substitute source position.line position.column fragment replacement
    = .ok (String.ofList (before ++ replacement.toList ++ after))
  := by
  obtain ⟨above, left, right, below, rfl, rfl, hline, hcolumn⟩ :=
    Text.exists_hasLine before fragment.toList after hfragment
  rw [← hsource, ← hposition] at hline hcolumn
  rw [substitute_eq_ok_iff hline, hcolumn]
  use left, right, placed_atColumn left fragment.toList right
  simp

/-- A fragment is replaced on a line that the source has, at its column if it stands there and
else where it stands first, and nothing else of the source changes. Only if the source does not
have the line, or the fragment is not where it is looked for on the line, this fails, and says
so. -/
theorem substitute_exact (source : String) (n column : Nat) (fragment replacement : String) :
  (∀ line lines, substitute source n column fragment replacement
        = .error (.lineOutOfRange line lines) ↔
      (n = 0 ∨ source.toList.count '\n' + 1 < n) ∧ line = n
        ∧ lines = source.toList.count '\n' + 1)
    ∧ (1 ≤ n → n ≤ source.toList.count '\n' + 1 → ∃ before text after,
      Text.HasLine source.toList n before text after
        ∧ ((∃ changed, substitute source n column fragment replacement = .ok changed) ↔
          Findable column fragment.toList text)
        ∧ (∀ missing line, substitute source n column fragment replacement
              = .error (.anchorNotFound missing line) ↔
            ¬Findable column fragment.toList text ∧ missing = fragment ∧ line = n)
        ∧ ∀ changed, substitute source n column fragment replacement = .ok changed →
          ∃ left right, Placed column fragment.toList text left right
            ∧ source.toList = before ++ left ++ fragment.toList ++ (right ++ after)
            ∧ changed.toList = before ++ left ++ replacement.toList ++ (right ++ after))
  := by
  constructor
  · intro line lines
    apply substitute_eq_outOfRange_iff
  · intro hpositive hle
    obtain ⟨before, text, after, hline⟩ := Text.exists_hasLine_iff.mpr ⟨hpositive, hle⟩
    use before, text, after, hline, exists_substitute_iff hline
    constructor
    · intro missing line
      apply substitute_eq_absent_iff hline
    · intro changed hchanged
      obtain ⟨left, right, hplaced, rfl⟩ := (substitute_eq_ok_iff hline).mp hchanged
      use left, right, hplaced
      rw [hline.parts, hplaced.parts]
      simp

/-- An operator is replaced behind a letter of two bytes, on a line after one that ends in a
carriage return. The column is inside of the letter, so that the operator is replaced where it
stands first. -/
theorem substitute_exact_stale :
  let source := "ß < a\r\nß < b < c"
  let changed := "ß < a\r\nß > b < c"
  1 ≤ 2 ∧ 2 ≤ source.toList.count '\n' + 1 ∧ substitute source 2 2 "<" ">" = .ok changed
    ∧ ∃ before text after left right, Text.HasLine source.toList 2 before text after
      ∧ Placed 2 "<".toList text left right
      ∧ source.toList = before ++ left ++ "<".toList ++ (right ++ after)
      ∧ changed.toList = before ++ left ++ ">".toList ++ (right ++ after)
  := by
  intro source changed
  have hle : 2 ≤ source.toList.count '\n' + 1 := by decide
  have hchanged : substitute source 2 2 "<" ">" = .ok changed := by decide +kernel
  obtain ⟨before, text, after, hline, -, -, hok⟩ :=
    (substitute_exact source 2 2 "<" ">").2 (by decide) hle
  obtain ⟨left, right, hplaced, hparts⟩ := hok changed hchanged
  exact ⟨by decide, hle, hchanged, before, text, after, left, right, hline, hplaced, hparts⟩

end MutationTesting.Planting
