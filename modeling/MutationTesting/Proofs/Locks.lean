import Mathlib.Data.List.Nodup
import Mathlib.Tactic.Common
import MutationTesting.Locks.Threads

/-!
# Locks exclude one another

`LockThreads.Step` tells all that a step of a thread can do. Every step keeps the state in order
(`Ordered`): the table holds exactly the keys of the locks that have not been dropped, each once,
and whenever the key that a sleeping thread wants has been given back, some thread is about to wake
the others. Whatever threads lock and drop whatever paths in whatever order, no two locks that have
not been dropped therefore have one key, and a thread that wants a lock gets it exactly if its key
is free, for which it does not sleep in vain (`LockThreads.run_exclusive`).
-/

namespace MutationTesting

namespace FileLocks

variable {locks taken : FileLocks} {key : LockKey}

theorem isLocked_iff :
  locks.isLocked key = true ↔ key ∈ locks.held
  := List.contains_iff_mem

theorem lock?_eq_some_iff :
  locks.lock? key = some taken ↔ key ∉ locks.held ∧ taken = ⟨key :: locks.held⟩
  := by
  rw [lock?, ← isLocked_iff]
  split
  · next h => simp [h]
  · next h => simp [h, eq_comm]

theorem lock?_eq_none_iff :
  locks.lock? key = .none ↔ key ∈ locks.held
  := by
  rw [lock?, ← isLocked_iff]
  split
  · next h => simp [h]
  · next h => simp [h]

end FileLocks

/-- The key of a lock is that of its path. -/
def FileLock.IsKeyed (canonical : String → Except FileError LockKey) (lock : FileLock) : Prop :=
  lock.key = .ofPath lock.path (canonical lock.path)

namespace LockStage

/-- The lock that a thread wants and does not have yet. -/
def wanted? : LockStage → Option FileLock
  | entering wanted | asleep wanted => some wanted
  | idle | waking => none

/-- A thread that is woken wants what it has wanted. -/
@[simp] theorem wanted?_woken (stage : LockStage) :
  stage.woken.wanted? = stage.wanted?
  := by
  cases stage <;> rfl

theorem woken_ne_asleep (stage : LockStage) (lock : FileLock) :
  stage.woken ≠ asleep lock
  := by
  cases stage <;> nofun

end LockStage

namespace LockThreads

variable {ι : Type} {canonical : String → Except FileError LockKey} {s s' : LockThreads ι}
  {move : LockMove ι} {thread : ι} {lock wanted : FileLock} {stage : LockStage}

/-! ### What a step can do -/

/-- All that a step of a thread can do. -/
inductive Step [DecidableEq ι] (canonical : String → Except FileError LockKey) (s : LockThreads ι) :
    LockMove ι → LockThreads ι → Prop where
  | call {thread : ι} {path : String} : s.stage thread = .idle →
      Step canonical s (.call thread path)
        (s.turn thread (.entering ⟨path, .ofPath path (canonical path)⟩))
  | take {thread : ι} {wanted : FileLock} : s.stage thread = .entering wanted →
      wanted.key ∉ s.locks.held →
      Step canonical s (.enter thread)
        ({ s with locks := ⟨wanted.key :: s.locks.held⟩, live := wanted :: s.live }.turn
          thread .idle)
  | wait {thread : ι} {wanted : FileLock} : s.stage thread = .entering wanted →
      wanted.key ∈ s.locks.held →
      Step canonical s (.enter thread) (s.turn thread (.asleep wanted))
  | stir {thread : ι} {wanted : FileLock} : s.stage thread = .asleep wanted →
      Step canonical s (.stir thread) (s.turn thread (.entering wanted))
  | drop {thread : ι} {lock : FileLock} : s.stage thread = .idle → lock ∈ s.live →
      Step canonical s (.drop thread lock)
        ({ s with locks := s.locks.unlock lock.key, live := s.live.erase lock }.turn
          thread .waking)
  | wake {thread : ι} : s.stage thread = .waking →
      Step canonical s (.wake thread)
        ({ s with stage := fun other => (s.stage other).woken }.turn thread .idle)

theorem step?_eq_some_iff [DecidableEq ι] :
  s.step? canonical move = some s' ↔ Step canonical s move s'
  := by
  constructor
  · intro h
    cases move with
    | call thread path =>
      rw [step?] at h
      split at h
      · next hidle =>
        cases h
        apply Step.call hidle
      · cases h
    | enter thread =>
      rw [step?] at h
      split at h
      · next wanted hentering =>
        split at h
        · next locks hlocks =>
          cases h
          obtain ⟨hfree, rfl⟩ := FileLocks.lock?_eq_some_iff.mp hlocks
          apply Step.take hentering hfree
        · next hnone =>
          cases h
          apply Step.wait hentering (FileLocks.lock?_eq_none_iff.mp hnone)
      · cases h
    | stir thread =>
      rw [step?] at h
      split at h
      · next wanted hasleep =>
        cases h
        apply Step.stir hasleep
      · cases h
    | drop thread lock =>
      rw [step?] at h
      split at h
      · next hidle =>
        split at h
        · next hlive =>
          cases h
          apply Step.drop hidle hlive
        · cases h
      · cases h
    | wake thread =>
      rw [step?] at h
      split at h
      · next hwaking =>
        cases h
        apply Step.wake hwaking
      · cases h
  · intro h
    cases h with
    | call hidle => rw [step?, hidle]
    | take hentering hfree =>
      rw [step?, hentering]
      dsimp only
      rw [FileLocks.lock?_eq_some_iff.mpr ⟨hfree, rfl⟩]
    | wait hentering hheld =>
      rw [step?, hentering]
      dsimp only
      rw [FileLocks.lock?_eq_none_iff.mpr hheld]
    | stir hasleep => rw [step?, hasleep]
    | drop hidle hlive =>
      rw [step?, hidle]
      dsimp only
      rw [if_pos hlive]
    | wake hwaking => rw [step?, hwaking]

/-! ### What every step keeps -/

/-- The table of a state holds exactly the keys of the locks that have not been dropped, each
once. These locks, and those that are wanted, have the keys of their paths. Where a thread sleeps
and its key is free, some thread is about to wake it. -/
structure Ordered (canonical : String → Except FileError LockKey) (s : LockThreads ι) : Prop where
  held : s.locks.held = s.live.map (·.key)
  nodup : (s.live.map (·.key)).Nodup
  live : ∀ lock ∈ s.live, lock.IsKeyed canonical
  wanted : ∀ thread, ∀ lock ∈ (s.stage thread).wanted?, lock.IsKeyed canonical
  heard : ∀ thread lock, s.stage thread = .asleep lock → lock.key ∉ s.locks.held →
    ∃ waker, s.stage waker = .waking

theorem ordered_start :
  (start : LockThreads ι).Ordered canonical
  where
  held := rfl
  nodup := List.nodup_nil
  live := nofun
  wanted := nofun
  heard := nofun

namespace Ordered

theorem mem_held_iff (h : s.Ordered canonical) {key : LockKey} :
  key ∈ s.locks.held ↔ ∃ lock ∈ s.live, lock.key = key
  := by
  rw [h.held, List.mem_map]

theorem not_mem_held_iff (h : s.Ordered canonical) {key : LockKey} :
  key ∉ s.locks.held ↔ ∀ lock ∈ s.live, lock.key ≠ key
  := by
  simp [h.mem_held_iff]

theorem isKeyed_of_entering (h : s.Ordered canonical) (hstage : s.stage thread = .entering wanted) :
  wanted.IsKeyed canonical
  := by
  apply h.wanted thread
  rw [hstage]
  rfl

theorem isKeyed_of_asleep (h : s.Ordered canonical) (hstage : s.stage thread = .asleep wanted) :
  wanted.IsKeyed canonical
  := by
  apply h.wanted thread
  rw [hstage]
  rfl

theorem distinct (h : s.Ordered canonical) :
  s.live.Pairwise fun a b => a.key ≠ b.key
  := List.pairwise_map.mp h.nodup

/-- Paths that lead to one file have one key. -/
theorem apart (h : s.Ordered canonical) :
  s.live.Pairwise fun a b =>
    ∀ file, canonical a.path = .ok file → canonical b.path ≠ .ok file
  := by
  apply h.distinct.imp_of_mem
  intro a b ha hb hne file hfile hfile'
  apply hne
  rw [h.live a ha, h.live b hb, hfile, hfile']
  rfl

/-- The table loses only the key of a lock that is dropped. -/
theorem held_erase (h : s.Ordered canonical) (hlock : lock ∈ s.live) :
  (s.locks.unlock lock.key).held = (s.live.erase lock).map (·.key)
  := by
  obtain ⟨before, after, -, hlive, herase⟩ := List.exists_erase_eq hlock
  have hnodup := h.nodup
  rw [hlive, List.map_append, List.map_cons, List.nodup_middle, List.nodup_cons,
    List.mem_append, not_or] at hnodup
  obtain ⟨⟨hbefore, hafter⟩, -⟩ := hnodup
  have hkept : ∀ keys : List LockKey, lock.key ∉ keys → keys.filter (· != lock.key) = keys := by
    intro keys hkeys
    apply List.filter_eq_self.mpr
    intro key hkey
    simp only [bne_iff_ne, ne_eq]
    rintro rfl
    contradiction
  rw [FileLocks.unlock, h.held, herase, hlive, List.map_append, List.map_cons, List.filter_append,
    List.filter_cons_of_neg (by simp), hkept _ hbefore, hkept _ hafter, List.map_append]

end Ordered

variable [DecidableEq ι]

theorem wanted_turn (h : ∀ thread, ∀ lock ∈ (s.stage thread).wanted?, lock.IsKeyed canonical)
    (hstage : ∀ lock ∈ stage.wanted?, lock.IsKeyed canonical) :
  ∀ other, ∀ lock ∈ ((s.turn thread stage).stage other).wanted?, lock.IsKeyed canonical
  := by
  intro other
  by_cases heq : other = thread
  · subst heq
    rw [stage_turn_self]
    apply hstage
  · rw [stage_turn_of_ne s heq]
    apply h

namespace Ordered

/-- Where a thread that has not been about to wake the others comes to a stage at which it does not
sleep without a reason, and no key becomes free, those that sleep are still heard. -/
theorem heard_turn (h : s.Ordered canonical) {held : List LockKey} (hheld : s.locks.held ⊆ held)
    (hwaking : s.stage thread ≠ .waking) (hasleep : ∀ lock, stage = .asleep lock → lock.key ∈ held) :
  ∀ other lock, (s.turn thread stage).stage other = .asleep lock → lock.key ∉ held →
    ∃ waker, (s.turn thread stage).stage waker = .waking
  := by
  intro other lock hother hfree
  by_cases heq : other = thread
  · subst heq
    rw [stage_turn_self] at hother
    apply absurd (hasleep lock hother) hfree
  · rw [stage_turn_of_ne s heq] at hother
    obtain ⟨waker, hwaker⟩ := h.heard other lock hother fun hkey => hfree (hheld hkey)
    use waker
    rw [stage_turn_of_ne s]
    · apply hwaker
    · rintro rfl
      apply hwaking hwaker

/-- A step that leaves the table and the locks alone, of a thread that has not been about to wake
the others, keeps a state in order. -/
theorem turn (h : s.Ordered canonical) (hwaking : s.stage thread ≠ .waking)
    (hstage : ∀ lock ∈ stage.wanted?, lock.IsKeyed canonical)
    (hasleep : ∀ lock, stage = .asleep lock → lock.key ∈ s.locks.held) :
  (s.turn thread stage).Ordered canonical
  where
  held := h.held
  nodup := h.nodup
  live := h.live
  wanted := wanted_turn h.wanted hstage
  heard := h.heard_turn (List.Subset.refl _) hwaking hasleep

theorem take (h : s.Ordered canonical) (hentering : s.stage thread = .entering wanted)
    (hfree : wanted.key ∉ s.locks.held) :
  ({ s with locks := ⟨wanted.key :: s.locks.held⟩, live := wanted :: s.live }.turn
    thread .idle).Ordered canonical
  where
  held := by rw [locks_turn, live_turn, List.map_cons, ← h.held]
  nodup := by
    rw [h.held] at hfree
    rw [live_turn, List.map_cons, List.nodup_cons]
    use hfree, h.nodup
  live := by
    intro lock hlock
    obtain rfl | hlock := List.mem_cons.mp hlock
    · apply h.isKeyed_of_entering hentering
    · apply h.live lock hlock
  wanted := wanted_turn h.wanted nofun
  heard := h.heard_turn (List.subset_cons_self _ _) (by simp [hentering]) nofun

theorem drop (h : s.Ordered canonical) (hlock : lock ∈ s.live) :
  ({ s with locks := s.locks.unlock lock.key, live := s.live.erase lock }.turn
    thread .waking).Ordered canonical
  where
  held := h.held_erase hlock
  nodup := List.Nodup.sublist (List.Sublist.map _ List.erase_sublist) h.nodup
  live := fun other hother => h.live other (List.mem_of_mem_erase hother)
  wanted := wanted_turn h.wanted nofun
  heard := fun _ _ _ _ => ⟨thread, stage_turn_self _ _ _⟩

theorem wake (h : s.Ordered canonical) :
  ({ s with stage := fun other => (s.stage other).woken }.turn thread .idle).Ordered canonical
  where
  held := h.held
  nodup := h.nodup
  live := h.live
  wanted := by
    apply wanted_turn
    · intro other
      rw [LockStage.wanted?_woken]
      apply h.wanted
    · nofun
  heard := by
    intro other lock hother
    by_cases heq : other = thread
    · subst heq
      rw [stage_turn_self] at hother
      cases hother
    · rw [stage_turn_of_ne _ heq] at hother
      apply absurd hother (LockStage.woken_ne_asleep _ lock)

/-- Every step keeps a state in order. -/
theorem step (h : s.Ordered canonical) (hstep : Step canonical s move s') :
  s'.Ordered canonical
  := by
  cases hstep with
  | call hidle =>
    apply h.turn (by simp [hidle])
    · rintro lock ⟨⟩
      rfl
    · nofun
  | take hentering hfree => apply h.take hentering hfree
  | wait hentering hheld =>
    apply h.turn (by simp [hentering])
    · rintro lock ⟨⟩
      apply h.isKeyed_of_entering hentering
    · intro lock hasleep
      cases hasleep
      apply hheld
  | stir hasleep =>
    apply h.turn (by simp [hasleep])
    · rintro lock ⟨⟩
      apply h.isKeyed_of_asleep hasleep
    · nofun
  | drop hidle hlive => apply h.drop hlive
  | wake hwaking => apply h.wake

/-- Whatever steps are made, they keep a state in order. -/
theorem run {moves : List (LockMove ι)} (h : s.Ordered canonical)
    (hrun : s.run? canonical moves = some s') :
  s'.Ordered canonical
  := by
  induction moves generalizing s with
  | nil =>
    cases hrun
    apply h
  | cons move moves ih =>
    obtain ⟨next, hstep, hrest⟩ := Option.bind_eq_some_iff.mp hrun
    apply ih (h.step (step?_eq_some_iff.mp hstep)) hrest

end Ordered

/-! ### Exclusion -/

/-- What the locks of some threads ensure in a state. -/
structure Exclusive (canonical : String → Except FileError LockKey) (s : LockThreads ι) :
    Prop where
  /-- The keys that are held are those of the locks that have not been dropped. -/
  held_iff : ∀ key, key ∈ s.locks.held ↔ ∃ lock ∈ s.live, lock.key = key
  /-- No two of these locks have one key. -/
  distinct : s.live.Pairwise fun a b => a.key ≠ b.key
  /-- No two of them are for paths that lead to one file. -/
  apart : s.live.Pairwise fun a b =>
    ∀ file, canonical a.path = .ok file → canonical b.path ≠ .ok file
  /-- A path is locked exactly if one of them has its key. -/
  isLocked_iff : ∀ path, s.isLocked canonical path = true
    ↔ ∃ lock ∈ s.live, lock.key = .ofPath path (canonical path)
  /-- A lock can be dropped, and frees its own key and no other. -/
  drops : ∀ thread lock, s.stage thread = .idle → lock ∈ s.live →
    ∃ s', s.step? canonical (.drop thread lock) = some s' ∧ s'.live = s.live.erase lock
      ∧ ∀ key, s'.locks.isLocked key = (key != lock.key && s.locks.isLocked key)
  /-- A thread that looks whether the key of its path is held takes the lock if no lock has that
  key, and falls asleep if one has it. -/
  enters : ∀ thread wanted, s.stage thread = .entering wanted → wanted.IsKeyed canonical
    ∧ ∃ s', s.step? canonical (.enter thread) = some s'
      ∧ ((∀ lock ∈ s.live, lock.key ≠ wanted.key) →
        s'.stage thread = .idle ∧ s'.live = wanted :: s.live)
      ∧ ((∃ lock ∈ s.live, lock.key = wanted.key) →
        s'.stage thread = .asleep wanted ∧ s'.live = s.live ∧ s'.locks = s.locks)
  /-- A thread does not sleep in vain: if its key is free, some thread is about to wake it. -/
  awakes : ∀ thread wanted, s.stage thread = .asleep wanted → wanted.IsKeyed canonical
    ∧ ((∀ lock ∈ s.live, lock.key ≠ wanted.key) →
      ∃ waker s', s.step? canonical (.wake waker) = some s'
        ∧ s'.stage thread = .entering wanted ∧ s'.live = s.live)

namespace Ordered

theorem enters (h : s.Ordered canonical) (hentering : s.stage thread = .entering wanted) :
  ∃ s', s.step? canonical (.enter thread) = some s'
    ∧ ((∀ lock ∈ s.live, lock.key ≠ wanted.key) →
      s'.stage thread = .idle ∧ s'.live = wanted :: s.live)
    ∧ ((∃ lock ∈ s.live, lock.key = wanted.key) →
      s'.stage thread = .asleep wanted ∧ s'.live = s.live ∧ s'.locks = s.locks)
  := by
  by_cases hheld : wanted.key ∈ s.locks.held
  · use s.turn thread (.asleep wanted), step?_eq_some_iff.mpr (.wait hentering hheld)
    constructor
    · intro hfree
      apply absurd hheld (h.not_mem_held_iff.mpr hfree)
    · intro _
      use stage_turn_self _ _ _, rfl
      rfl
  · refine ⟨_, step?_eq_some_iff.mpr (.take hentering hheld), ?_, ?_⟩
    · intro _
      use stage_turn_self _ _ _
      rfl
    · intro hlock
      apply absurd (h.mem_held_iff.mpr hlock) hheld

theorem awakes (h : s.Ordered canonical) (hasleep : s.stage thread = .asleep wanted)
    (hfree : ∀ lock ∈ s.live, lock.key ≠ wanted.key) :
  ∃ waker s', s.step? canonical (.wake waker) = some s'
    ∧ s'.stage thread = .entering wanted ∧ s'.live = s.live
  := by
  obtain ⟨waker, hwaking⟩ := h.heard thread wanted hasleep (h.not_mem_held_iff.mpr hfree)
  have hne : thread ≠ waker := by
    rintro rfl
    rw [hasleep] at hwaking
    cases hwaking
  refine ⟨waker, _, step?_eq_some_iff.mpr (.wake hwaking), ?_, rfl⟩
  rw [stage_turn_of_ne _ hne]
  dsimp only
  rw [hasleep]
  rfl

end Ordered

/-- Whatever threads lock and drop whatever paths, in whatever order, their locks exclude one
another. -/
theorem run_exclusive (canonical : String → Except FileError LockKey) {moves : List (LockMove ι)}
    (h : start.run? canonical moves = some s) :
  s.Exclusive canonical
  := by
  have hordered : s.Ordered canonical := ordered_start.run h
  constructor
  · exact fun key => hordered.mem_held_iff
  · exact hordered.distinct
  · exact hordered.apart
  · intro path
    rw [isLocked, FileLocks.isLocked_iff, hordered.mem_held_iff]
  · intro thread lock hidle hlock
    refine ⟨_, step?_eq_some_iff.mpr (.drop hidle hlock), rfl, ?_⟩
    intro key
    apply FileLocks.isLocked_unlock
  · intro thread wanted hentering
    exact ⟨hordered.isKeyed_of_entering hentering, hordered.enters hentering⟩
  · intro thread wanted hasleep
    exact ⟨hordered.isKeyed_of_asleep hasleep, hordered.awakes hasleep⟩

/-- A thread locks a file by one path and drops the lock while another one waits for the file, by
another path. -/
theorem run_exclusive_spellings :
  ∃ s, start.run? ((Disk.empty "w").put ["w", "a.go"] (.file (.text ""))).identify
      [.call false "a.go", .enter false, .call true "../w/./a.go", .enter true,
        .drop false ⟨"a.go", [.root, .normal "w", .normal "a.go"]⟩] = some s
    ∧ s.stage true = .asleep ⟨"../w/./a.go", [.root, .normal "w", .normal "a.go"]⟩
    ∧ s.Exclusive ((Disk.empty "w").put ["w", "a.go"] (.file (.text ""))).identify
  := by
  have hrun : ∃ s, start.run? ((Disk.empty "w").put ["w", "a.go"] (.file (.text ""))).identify
      [.call false "a.go", .enter false, .call true "../w/./a.go", .enter true,
        .drop false ⟨"a.go", [.root, .normal "w", .normal "a.go"]⟩] = some s
      ∧ s.stage true = .asleep ⟨"../w/./a.go", [.root, .normal "w", .normal "a.go"]⟩ :=
    ⟨_, rfl, rfl⟩
  obtain ⟨s, hrun, hasleep⟩ := hrun
  exact ⟨s, hrun, hasleep, run_exclusive _ hrun⟩

end LockThreads

end MutationTesting
