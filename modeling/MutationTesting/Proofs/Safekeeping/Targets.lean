import Mathlib.Data.Set.Function
import MutationTesting.Proofs.Cycle.Recovery

/-!
# Targets

The targets are files that hold some texts. `World.hazardous` is a disk where any operation may
fail that reports failures, and where programs and oracles leave the targets and their backups
alone. A target is `Safe` on it while it holds its text and has no backup, or has a backup that
holds its text. A request `Keeps` a target if it leaves it safe, and `Spares` a file if it leaves it
and its backup as they are, as everything does that is done on paths that are `Apart` from both.
-/

namespace MutationTesting

open Disk Procedure

/-- Whether an operation looks for something, so that it cannot report a failure. -/
def FileOperation.isLooking : FileOperation → Bool
  | .isPresent _ | .isDirectory _ => true
  | _ => false

/-- A disk where any operation may fail that reports failures, directories are made nowhere but
along their path, and programs and oracles leave some files and their backups alone. -/
def World.hazardous (targets : Set String) : World Disk
  -- A backup that is there and cannot be looked for is not restored, and settings that cannot be
  -- looked for are not used. Nothing reports this, so what is there is found here.
  | .file operation, d, a, d' => d.Yields operation a d'
    ∧ (∀ path, operation = .makeDirectories path → Along path d d')
    ∧ (operation.isLooking = true → d.perform operation = (a, d'))
  | .consult _ _, d, _, d' | .launch _, d, _, d' =>
    ∀ file ∈ targets, Unchanged file d d' ∧ Unchanged (Backup.path file) d d'
  | .isInterrupted, d, _, d' | .clock, d, _, d' | .print _, d, _, d' => d' = d

variable {targets files : Set String} {text : String} {home : Location} {d d' : Disk}
  {file other path : String}

/-- On a disk with nothing unforeseen nothing happens that could not happen on a hazardous one. -/
theorem World.hazardous_of_serve (targets : Set String) (request : Request) (d : Disk)
    (a : request.Answer) (d' : Disk) (h : World.ofAnswer Disk.serve request d a d') :
  World.hazardous targets request d a d'
  := by
  cases request with
  | file operation =>
    refine ⟨?_, ?_, fun _ => h⟩
    · left
      apply h
    · rintro path rfl
      obtain ⟨-, hmake⟩ | ⟨rfl, -⟩ := Yields.of_commit h
      · apply (extends_of_makeDirectories hmake).2
      · apply Along.refl
  | consult =>
    cases h
    exact fun _ _ => ⟨Unchanged.refl _ d, Unchanged.refl _ d⟩
  | launch =>
    cases h
    exact fun _ _ => ⟨Unchanged.refl _ d, Unchanged.refl _ d⟩
  | isInterrupted =>
    cases h
    rfl
  | clock =>
    cases h
    rfl
  | print =>
    cases h
    rfl

/-- Whether something is there can be told on a hazardous disk. -/
theorem World.isPresent_of_hazardous {a : Bool}
    (h : World.hazardous targets (.file (.isPresent path)) d a d') :
  d' = d ∧ a = d.isPresent path
  := by
  cases h.2.2 rfl
  exact ⟨rfl, rfl⟩

/-- What a procedure does on a disk with nothing unforeseen it may do on a hazardous one. -/
theorem World.reaches_of_advance {α : Type} (targets : Set String) {n : Nat} {p : Procedure α}
    {d : Disk} {reached : List Event × Procedure α × Disk}
    (h : p.advance Disk.serve n d = reached) :
  Reaches (World.hazardous targets) p d reached.1 reached.2.1 reached.2.2
  := by
  rw [← h]
  apply (reaches_advance Disk.serve n p d).mono (World.hazardous_of_serve targets)

/-! ### Paths that are apart -/

/-- Two texts that can be paths lead to different places. -/
def Disk.Parted (home : Location) (path other : String) : Prop :=
  IsPath path → IsPath other → place home path ≠ place home other

theorem Disk.Touched.unchanged_of_parted (h : Touched path d d')
    (hparted : Parted d.home other path) :
  Unchanged other d d'
  := by
  by_cases hother : IsPath other
  · apply h.unchanged_of_isPath (hparted hother)
  · apply Unchanged.of_not_isPath hother h.home

/-- A path leads to none of some files and to none of their backups. -/
def Apart (files : Set String) (home : Location) (path : String) : Prop :=
  ∀ file ∈ files, Parted home file path ∧ Parted home (Backup.path file) path

/-- A file that commands may work on: the paths to it, to its backup and to its compiled code are
apart from all other targets. -/
structure Workable (targets : Set String) (home : Location) (file : String) : Prop where
  itself : Apart (targets \ {file}) home file
  backup : Apart (targets \ {file}) home (Backup.path file)
  compiled : ∀ path, Backup.Clears file path → Apart (targets \ {file}) home path

/-- A path that commands may write to: it leads to no target and neither to a backup nor through
the place of one. -/
structure Writable (targets : Set String) (home : Location) (path : String) : Prop where
  apart : Apart targets home path
  aside : ∀ file ∈ targets, place home (Backup.path file) ∉ passes home path

/-- Targets that hold their texts and have no backups can be worked on, if each is named by one
path and none is compiled code of another one. -/
theorem workable_of_intact {text : String → String}
    (hintact : ∀ file ∈ targets, Intact file (text file) d)
    (hnamed : Set.InjOn (place d.home) targets)
    (hcompiled : ∀ file ∈ targets, ∀ path, Backup.Clears file path → ∀ other ∈ targets,
      place d.home other ≠ place d.home path) (hfile : file ∈ targets) :
  Workable targets d.home file
  := by
  have hread : ∀ file ∈ targets, d.readContent file = .ok (.text (text file)) :=
    fun file hfile => readText_ok_iff.mp (hintact file hfile).content
  have hcrossed : ∀ file ∈ targets, ∀ other ∈ targets, IsPath (Backup.path other) →
      place d.home file ≠ place d.home (Backup.path other) := by
    intro file hfile other hother hpath heq
    have habsent := (hintact other hother).backup
    rw [Backup.isPresent_path_of_place_eq (hread other hother) (hread file hfile) hpath heq]
      at habsent
    cases habsent
  obtain ⟨name, hname⟩ := Backup.exists_endsIn (hread file hfile)
  constructor
  · rintro other ⟨hother, hne⟩
    constructor
    · intro _ _ heq
      apply hne (hnamed hother hfile heq)
    · intro hpath _ heq
      apply hcrossed file hfile other hother hpath heq.symm
  · rintro other ⟨hother, hne⟩
    constructor
    · intro _ hpath
      apply hcrossed other hother file hfile hpath
    · intro _ _
      obtain ⟨name', hname'⟩ := Backup.exists_endsIn (hread other hother)
      apply Backup.place_path_ne_place_path hname' hname
      intro heq
      apply hne (hnamed hother hfile heq)
  · rintro path hclears other ⟨hother, -⟩
    constructor
    · intro _ _
      apply hcompiled file hfile path hclears other hother
    · intro _ _
      obtain ⟨name', hname'⟩ := Backup.exists_endsIn (hread other hother)
      apply hclears.isCompiled.place_ne_path hname'

/-! ### Safe targets -/

/-- A path and the backup of its file find the same on two disks. -/
def Disk.Spared (file : String) (d d' : Disk) : Prop :=
  Unchanged file d d' ∧ Unchanged (Backup.path file) d d'

namespace Disk.Spared

variable {d'' : Disk}

theorem refl (file : String) (d : Disk) :
  Spared file d d
  := ⟨Unchanged.refl file d, Unchanged.refl _ d⟩

theorem trans (h : Spared file d d') (h' : Spared file d' d'') :
  Spared file d d''
  := ⟨h.1.trans h'.1, h.2.trans h'.2⟩

theorem intact_iff (h : Spared file d d') :
  Intact file text d' ↔ Intact file text d
  := by
  constructor
  · rintro ⟨hcontent, hbackup⟩
    exact ⟨h.1.readText_iff.mp hcontent, h.2.present ▸ hbackup⟩
  · exact fun hintact => hintact.of_unchanged h.1 h.2

end Disk.Spared

/-- A file holds its text and has no backup, or it has a backup that holds its text. -/
structure Safe (file text : String) (home : Location) (d : Disk) : Prop where
  home : d.home = home
  kept : Intact file text d ∨ BackedUp file text d

/-- A file has a backup that holds its text. -/
structure Held (file text : String) (home : Location) (d : Disk) : Prop
    extends BackedUp file text d where
  home : d.home = home

theorem Held.safe (h : Held file text home d) :
  Safe file text home d
  := ⟨h.home, .inr h.toBackedUp⟩

namespace Safe

theorem exists_readContent (h : Safe file text home d) :
  ∃ content, d.readContent file = .ok content
  := by
  obtain hintact | hbackedUp := h.kept
  · use .text text
    apply readText_ok_iff.mp hintact.content
  · apply hbackedUp.content

theorem of_spared (h : Safe file text home d) (hspared : Spared file d d') :
  Safe file text home d'
  := by
  constructor
  · rw [hspared.1.home, h.home]
  · apply h.kept.imp
    · apply hspared.intact_iff.mpr
    · intro hbackedUp
      apply hbackedUp.of_unchanged hspared.1 hspared.2

/-- A safe file that has something for a backup has its text in it. -/
theorem held (h : Safe file text home d) (hpresent : d.isPresent (Backup.path file) = true) :
  Held file text home d
  := by
  obtain hintact | hbackedUp := h.kept
  · cases hintact.backup.symm.trans hpresent
  · use hbackedUp, h.home

/-- A safe file without a backup holds its text. -/
theorem intact (h : Safe file text home d) (habsent : d.isPresent (Backup.path file) = false) :
  Intact file text d
  := by
  obtain hintact | hbackedUp := h.kept
  · apply hintact
  · have hpresent := isPresent_of_readContent (readText_ok_iff.mp hbackedUp.backup)
    cases habsent.symm.trans hpresent

end Safe

/-- All targets are safe. -/
def Secured (targets : Set String) (text : String → String) (home : Location) (d : Disk) : Prop :=
  ∀ file ∈ targets, Safe file (text file) home d

/-! ### Requests that keep a target -/

/-- Whether an operation only looks at files. -/
def FileOperation.isReading : FileOperation → Bool
  | .readText _ | .isPresent _ | .isDirectory _ | .list _ | .identify _ => true
  | _ => false

/-- Whether a request neither changes files nor runs anything. -/
def Request.isReading : Request → Bool
  | .file operation => operation.isReading
  | .isInterrupted | .clock | .print _ => true
  | .consult _ _ | .launch _ => false

/-- Whether a request runs the tests. -/
def Request.isTrial : Request → Bool
  | .consult _ _ | .launch _ => true
  | .file _ | .isInterrupted | .clock | .print _ => false

/-- A request leaves a file that can be read, and its backup, as they are on a hazardous disk. -/
def Request.Spares (targets : Set String) (home : Location) (file : String) (request : Request) :
    Prop :=
  ∀ ⦃d a d'⦄, World.hazardous targets request d a d' → d.home = home →
    (∃ content, d.readContent file = .ok content) → Spared file d d'

/-- A request leaves a safe target safe on a hazardous disk. -/
def Request.Keeps (targets : Set String) (home : Location) (file text : String)
    (request : Request) : Prop :=
  ∀ ⦃d a d'⦄, World.hazardous targets request d a d' → Safe file text home d →
    Safe file text home d'

theorem World.eq_of_isReading {request : Request} {a : request.Answer}
    (h : request.isReading = true) (hanswer : World.hazardous targets request d a d') :
  d' = d
  := by
  cases request with
  | file operation =>
    obtain hperform | ⟨-, hleaves⟩ := hanswer.1
    · cases operation <;> cases h <;> cases hperform <;> rfl
    · cases operation <;> cases h <;> exact hleaves
  | consult => cases h
  | launch => cases h
  | isInterrupted | clock | print => exact hanswer

namespace Request

variable {request : Request}

theorem Spares.keeps (h : request.Spares targets home file) :
  request.Keeps targets home file text
  := by
  intro d a d' hanswer hsafe
  apply hsafe.of_spared (h hanswer hsafe.home hsafe.exists_readContent)

theorem spares_of_isReading (h : request.isReading = true) :
  request.Spares targets home file
  := by
  intro d a d' hanswer _ _
  rw [World.eq_of_isReading h hanswer]
  apply Spared.refl

theorem spares_of_isTrial (h : request.isTrial = true) (hfile : file ∈ targets) :
  request.Spares targets home file
  := by
  intro d a d' hanswer _ _
  cases request with
  | consult => apply hanswer file hfile
  | launch => apply hanswer file hfile
  | file | isInterrupted | clock | print => cases h

theorem spares_of_target? {operation : FileOperation} (htarget : operation.target? = some path)
    (hapart : Apart files home path) (hfile : file ∈ files) :
  (Request.file operation).Spares targets home file
  := by
  rintro d a d' hanswer rfl _
  obtain ⟨hparted, hbackup⟩ := hapart file hfile
  have htouched := hanswer.1.touched htarget
  exact ⟨htouched.unchanged_of_parted hparted, htouched.unchanged_of_parted hbackup⟩

theorem spares_makeDirectories (h : place home (Backup.path file) ∉ passes home path) :
  (Request.file (.makeDirectories path)).Spares targets home file
  := by
  rintro d a d' ⟨hyields, halong, -⟩ rfl ⟨content, hread⟩
  have hextends : Extends d d' := by
    obtain hperform | ⟨-, _, hmake⟩ := hyields
    · obtain ⟨-, hmake⟩ | ⟨rfl, -⟩ := Yields.of_commit hperform
      · apply (extends_of_makeDirectories hmake).1
      · apply Extends.refl
    · apply (extends_of_makeDirectories hmake).1
  apply Backup.unchanged_of_extends hread hextends (halong path rfl) h

end Request

end MutationTesting
