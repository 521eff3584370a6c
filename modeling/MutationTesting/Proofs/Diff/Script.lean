import Mathlib.Tactic.Common
import MutationTesting.Diff

/-!
# What a script leads from and to

A script is between two lists, its sides, and `Script.on` gives the list that it covers on one
side. The script that is found between two lists is between these lists (`on_between`), and
moving runs past each other and sliding insertions over kept elements changes neither side
(`on_shiftUp`, `on_shiftDown`), so that neither does compaction (`on_compact`).
-/

namespace MutationTesting.Diff

/-- The two lists that a script is between. -/
inductive Side where
  | old
  | new
  deriving DecidableEq, Repr

variable {α : Type}

/-- The elements of one list that a run covers. -/
def Hunk.on : Side → Hunk α → List α
  | .old => Hunk.old
  | .new => Hunk.new

/-- The list on one side of a script. -/
def Script.on : Side → Script α → List α
  | .old => Script.old
  | .new => Script.new

namespace Script

variable (side : Side)

@[simp] theorem on_nil :
  on side ([] : Script α) = []
  := by
  cases side <;> rfl

@[simp] theorem on_cons (hunk : Hunk α) (s : Script α) :
  on side (hunk :: s) = hunk.on side ++ on side s
  := by
  cases side <;> rfl

@[simp] theorem on_append (s t : Script α) :
  on side (s ++ t) = on side s ++ on side t
  := by
  cases side <;> exact List.flatMap_append

end Script

variable (side : Side)

@[simp] theorem Hunk.on_keep (xs : List α) :
  (keep xs).on side = xs
  := by
  cases side <;> rfl

@[simp] theorem Hunk.on_old_delete (xs : List α) : (delete xs).on .old = xs := rfl

@[simp] theorem Hunk.on_new_delete (xs : List α) : (delete xs).on .new = [] := rfl

@[simp] theorem Hunk.on_old_insert (xs : List α) : (insert xs).on .old = [] := rfl

@[simp] theorem Hunk.on_new_insert (xs : List α) : (insert xs).on .new = xs := rfl

@[simp] theorem Script.on_kept (xs : List α) :
  Script.on side (kept xs) = xs
  := by
  cases xs with
  | nil => simp [kept]
  | cons x xs => simp [kept]

@[simp] theorem Script.on_reverse_kept (xs : List α) :
  Script.on side (kept xs).reverse = xs
  := by
  cases xs with
  | nil => simp [kept]
  | cons x xs => simp [kept]

@[simp] theorem Script.on_old_deletion (xs : List α) :
  Script.on .old (deletion xs) = xs
  := by
  cases xs <;> simp [deletion]

@[simp] theorem Script.on_new_deletion (xs : List α) :
  Script.on .new (deletion xs) = []
  := by
  cases xs <;> simp [deletion]

@[simp] theorem Script.on_old_insertion (xs : List α) :
  Script.on .old (insertion xs) = []
  := by
  cases xs <;> simp [insertion]

@[simp] theorem Script.on_new_insertion (xs : List α) :
  Script.on .new (insertion xs) = xs
  := by
  cases xs <;> simp [insertion]

/-! ### The script between two lists -/

section

variable [DecidableEq α]

/-- The script that is found between two lists is between them. -/
theorem on_between (old new : List α) :
  (Script.between old new).on .old = old ∧ (Script.between old new).on .new = new
  := by
  induction old, new using Script.between.induct with
  | case1 old new before old' new' hstart oldCore newCore after hend ihfront ihback =>
    obtain ⟨hold, hnew⟩ := commonStart_eq old new
    obtain ⟨hold', hnew'⟩ := commonEnd_eq old' new'
    rw [hstart] at hold hnew
    rw [hend] at hold' hnew'
    -- whatever stands between the common ends, the lists on its sides are the cores
    have hsides (core : Script α) (hcore : core.on .old = oldCore ∧ core.on .new = newCore) :
        (kept before ++ core ++ kept after).on .old = old
          ∧ (kept before ++ core ++ kept after).on .new = new := by
      simp only [Script.on_append, Script.on_kept, hcore, List.append_assoc]
      rw [hold, hnew, hold', hnew']
      exact ⟨rfl, rfl⟩
    rw [Script.between, hstart]
    dsimp only
    rw [hend]
    apply hsides
    dsimp only
    split
    · simp
    · split
      · simp
      · next x y hmiddle =>
        split
        · next hshorter =>
          simp [ihfront x y hshorter, ihback x y hshorter]
        · simp

end

/-! ### Shifts -/

/-- The script that a run stands in, between those before it, which are given last one first, and
those after it. -/
def assembled : Script α × Hunk α × Script α → Script α
  | (before, this, after) => before.reverse ++ this :: after

theorem on_keepBefore (xs : List α) (s : Script α) :
  (keepBefore xs s).on side = xs ++ s.on side
  := by
  unfold keepBefore
  split <;> simp

theorem on_reverse_keepAfter (xs : List α) (s : Script α) :
  Script.on side (keepAfter xs s).reverse = Script.on side s.reverse ++ xs
  := by
  unfold keepAfter
  split <;> simp

variable [DecidableEq α]

/-- Moving a run up changes neither side. -/
theorem on_shiftUp (before : Script α) (this : Hunk α) (after : Script α) :
  (assembled (shiftUp before this after)).on side = (assembled (before, this, after)).on side
  := by
  fun_induction shiftUp before this after with
  | case1 after before this ih =>
    rw [ih]
    simp [assembled]
  | case3 after xs before ys _ xs' ys' common _ hend _ ih =>
    -- the run slides over elements that both it and the kept run end with
    obtain ⟨hxs, hys⟩ := commonEnd_eq xs ys
    rw [hend] at hxs hys
    rw [ih, hxs, hys]
    cases side <;> simp [assembled, on_keepBefore]
  | case5 after xs before ys ih
  | case6 after xs before ys ih
  | case7 after xs before ys ih
  | case8 after xs before ys ih =>
    rw [ih]
    cases side <;> simp [assembled]
  | case2 | case4 | case9 => rfl

/-- Moving a run down changes neither side. -/
theorem on_shiftDown (before : Script α) (this : Hunk α) (after : Script α) :
  (assembled (shiftDown before this after)).on side = (assembled (before, this, after)).on side
  := by
  fun_induction shiftDown before this after with
  | case1 before after this ih =>
    rw [ih]
    simp [assembled]
  | case3 before xs after ys common xs' ys' _ _ hstart _ ih =>
    -- the run slides over elements that both it and the kept run start with
    obtain ⟨hxs, hys⟩ := commonStart_eq xs ys
    rw [hstart] at hxs hys
    rw [ih, hxs, hys]
    cases side <;> simp [assembled, on_reverse_keepAfter]
  | case5 before xs after ys ih
  | case6 before xs after ys ih
  | case7 before xs after ys ih
  | case8 before xs after ys ih =>
    rw [ih]
    cases side <;> simp [assembled]
  | case2 | case4 | case9 => rfl

/-! ### Compaction -/

/-- A sweep changes neither side. -/
theorem on_sweep (isSort : Hunk α → Bool) (fuel : Nat) (before after : Script α) :
  (sweep isSort fuel before after).on side
    = Script.on side before.reverse ++ after.on side
  := by
  fun_induction sweep isSort fuel before after with
  | case1 => simp
  | case2 => simp
  | case3 fuel before this after _ before' this' after' hup before'' this'' after'' hdown ih =>
    have hshift : (assembled (before'', this'', after'')).on side
        = (assembled (before, this, after)).on side := by
      rw [← hdown, on_shiftDown, ← hup, on_shiftUp]
    rw [ih]
    simpa [assembled] using hshift
  | case4 fuel before this after _ ih =>
    rw [ih]
    simp

/-- Compaction changes neither side. -/
theorem on_compact (s : Script α) :
  s.compact.on side = s.on side
  := by
  simp [Script.compact, on_sweep]

/-! ### Equal lists -/

theorem commonStart_self (xs : List α) :
  commonStart xs xs = (xs, [], [])
  := by
  induction xs with
  | nil => rfl
  | cons x xs ih => simp [commonStart, ih]

/-- Equal lists are kept as a whole. -/
theorem between_self (xs : List α) :
  Script.between xs xs = kept xs
  := by
  rw [Script.between, commonStart_self]
  simp [commonEnd, commonStart, deletion, insertion, kept]

/-- A sweep leaves runs that are not of its sort as they are. -/
theorem sweep_of_all_not {isSort : Hunk α → Bool} (fuel : Nat) (before : Script α)
    {after : Script α} (hnot : ∀ hunk ∈ after, isSort hunk = false) :
  sweep isSort fuel before after = before.reverse ++ after
  := by
  fun_induction sweep isSort fuel before after with
  | case1 => rfl
  | case2 => simp
  | case3 _ _ this _ hsort =>
    simp [hnot this List.mem_cons_self] at hsort
  | case4 _ _ _ _ _ ih =>
    rw [ih fun hunk hmem => hnot hunk (List.mem_cons_of_mem _ hmem)]
    simp

theorem compact_kept (xs : List α) :
  (kept xs).compact = kept xs
  := by
  have hkept : ∀ hunk ∈ kept xs, hunk = .keep xs := by
    cases xs <;> simp [kept]
  have hdelete : ∀ hunk ∈ kept xs, hunk.isDelete = false := fun hunk hmem => by
    rw [hkept hunk hmem]; rfl
  have hinsert : ∀ hunk ∈ kept xs, hunk.isInsert = false := fun hunk hmem => by
    rw [hkept hunk hmem]; rfl
  simp [Script.compact, sweep_of_all_not _ _ hdelete, sweep_of_all_not _ _ hinsert]

end MutationTesting.Diff
