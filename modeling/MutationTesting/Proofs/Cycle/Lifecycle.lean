import Mathlib.Logic.Relation
import MutationTesting.Proofs.Cycle.Verdict

/-!
# The life of a guard

A guard lives through changes to the disk that others make and through restorations that fail
(`Guard.Endures`), and stays as it was when it was got. As long as it does, it is `Armed`: an
attempt to restore its file is made by `restore`, and by `drop` once more, one that succeeds leaves
the file with the saved text and without a backup, and dropping the guard after that does nothing.
No call takes the backup away but where the file holds the text, and none that finds the text in the
file writes the file (`Guard.lifecycle`). One that cannot read the file writes it whatever it holds,
and may fail for that (`Guard.not_lifecycle`).
-/

namespace MutationTesting

open Disk Procedure

variable {file name : String} {d d' : Disk} {events : List Event} {holds : Disk → Prop}

/-! ### What takes a backup away -/

/-- The backup of a file is taken away, if it is, only where a condition holds. -/
def Backup.GoesWhere (file : String) (holds : Disk → Prop) (d d' : Disk) : Prop :=
  d.isPresent (Backup.path file) = true → d'.isPresent (Backup.path file) = false → holds d

/-- On a faulty disk that nothing else changes, no request of a procedure takes the backup of a file
away but where a condition holds. -/
def Procedure.SparesBackup {α : Type} (p : Procedure α) (file : String) (holds : Disk → Prop)
    (d : Disk) : Prop :=
  Ensures World.faulty Eq (fun d _ d' => Backup.GoesWhere file holds d d') (fun _ _ => True) p d

theorem Backup.GoesWhere.of_unchanged (h : Unchanged (Backup.path file) d d') :
  Backup.GoesWhere file holds d d'
  := by
  intro hbefore hafter
  rw [h.present, hbefore] at hafter
  cases hafter

namespace Procedure.SparesBackup

theorem pure {α : Type} {value : α} :
  (Pure.pure value : Procedure α).SparesBackup file holds d
  := fun _ _ => trivial

theorem request {β : Type} {r : Request} {f : r.Answer → Procedure β}
    (h : ∀ a d', World.faulty r d a d' →
      Backup.GoesWhere file holds d d' ∧ (f a).SparesBackup file holds d') :
  (Procedure.request r >>= f).SparesBackup file holds d
  := by
  apply Ensures.request
  rintro _ rfl
  apply h

theorem bind {α β : Type} {p : Procedure α} {f : α → Procedure β} (h : p.SparesBackup file holds d)
    (hf : ∀ events value d', Runs World.faulty p d events value d' →
      (f value).SparesBackup file holds d') :
  (p >>= f).SparesBackup file holds d
  := by
  apply Ensures.bind fun _ => rfl
  apply Ensures.of_runs h hf

end Procedure.SparesBackup

theorem Backup.spares_clearCompiledCode (hname : EndsIn file name) :
  (Backup.clearCompiledCode file).SparesBackup file holds d
  := by
  apply (Backup.ensures_clearCompiledCode (I := fun _ => True) _ _ _ trivial).mono
  · exact fun _ _ _ => trivial
  · exact fun _ _ _ _ => trivial
  · intro cache s a s' hlist _
    obtain rfl := Yields.list hlist
    use .of_unchanged (.refl _ _)
  · intro path hclears s a s' hremove _
    use .of_unchanged (hclears.isCompiled.unchanged hname (Yields.touched hremove rfl)).2

namespace Guard

/-- The file of a guard holds the saved text. -/
def IsBack (g : Guard) (d : Disk) : Prop := d.readText g.file = .ok g.saved

variable {g g' : Guard} {result : Except FileError Unit}

/-! ### Attempts to restore a file -/

/-- A backup is removed where the file holds the saved text. -/
theorem spares_removeBackup (hname : EndsIn g.file name) (hback : g.IsBack d) :
  g.removeBackup.SparesBackup g.file g.IsBack d
  := by
  have hclear : ∀ d', (do
      Backup.clearCompiledCode g.file
      return (.ok () : Except FileError Unit)).SparesBackup g.file g.IsBack d' :=
    fun _ => (Backup.spares_clearCompiledCode hname).bind fun _ _ _ _ => .pure
  apply SparesBackup.request
  intro a d' hremove
  use fun _ _ => hback
  split
  · apply hclear
  · apply hclear
  · apply SparesBackup.pure

theorem spares_writeBack (hname : EndsIn g.file name) :
  g.writeBack.SparesBackup g.file g.IsBack d
  := by
  apply SparesBackup.bind
  · apply SparesBackup.request
    intro a d' hread
    obtain ⟨rfl, -⟩ := Yields.readText hread
    use .of_unchanged (.refl _ _)
    cases a <;> exact .pure
  · intro events held d' hheld
    obtain ⟨rfl, r, -, hseen, hread⟩ := runs_holdsSaved hheld
    split
    · next hheld =>
      apply spares_removeBackup hname (hread _ (hseen.mp hheld))
    · apply SparesBackup.request
      intro a d' hwrite
      use .of_unchanged (Backup.unchanged_path_of_endsIn hname (Yields.touched hwrite rfl))
      cases a with
      | error e => apply SparesBackup.pure
      | ok =>
        apply spares_removeBackup hname
        apply readText_ok_iff.mpr (Yields.write_ok hwrite)

theorem spares_restore (hname : EndsIn g.file name) :
  g.restore.SparesBackup g.file g.IsBack d
  := by
  apply (spares_writeBack hname).bind
  intro events result d' _
  cases result <;> exact .pure

theorem spares_drop (hname : EndsIn g.file name) :
  g.drop.SparesBackup g.file g.IsBack d
  := by
  rw [drop]
  split
  · apply SparesBackup.pure
  · apply (spares_writeBack hname).bind fun _ _ _ _ => .pure

/-- A backup that could not be filled is removed where the file holds what was read. -/
theorem spares_acquire :
  (acquire file).SparesBackup file
    (fun d' => ∃ saved, d.readText file = .ok saved ∧ d'.readText file = .ok saved) d
  := by
  apply SparesBackup.request
  intro a d₁ hread
  obtain ⟨rfl, htext⟩ := Yields.readText hread
  use .of_unchanged (.refl _ _)
  cases a with
  | error e => apply SparesBackup.pure
  | ok saved =>
    obtain ⟨name, hname⟩ := Backup.exists_endsIn (readText_ok_iff.mp (htext saved rfl))
    have hholds : ∀ {d'}, Unchanged file d₁ d' →
        ∃ saved, d₁.readText file = .ok saved ∧ d'.readText file = .ok saved :=
      fun hkept => ⟨saved, htext saved rfl, hkept.readText_iff.mpr (htext saved rfl)⟩
    apply SparesBackup.request
    intro a d₂ hcreate
    have hcreated := Backup.unchanged_of_endsIn hname (Yields.touched hcreate rfl)
    use fun _ _ => hholds (.refl _ _)
    cases a with
    | error e => apply SparesBackup.pure
    | ok =>
      apply SparesBackup.request
      intro a d₃ hfill
      have hfilled := hcreated.trans
        (Backup.unchanged_of_endsIn hname (Yields.touched hfill rfl))
      use fun _ _ => hholds hcreated
      cases a with
      | error e =>
        apply SparesBackup.request
        intro a d₄ _
        use fun _ _ => hholds hfilled
        apply SparesBackup.pure
      | ok => apply SparesBackup.pure

/-- What comes of an attempt to restore a file. One that can read the file and finds the saved text
in it does not write it, and can only fail because the backup is there and cannot be removed. -/
structure Attempt (g : Guard) (d : Disk) (events : List Event) (result : Except FileError Unit)
    (d' : Disk) : Prop where
  intact : result = .ok () → Intact g.file g.saved d'
  failed : ∀ e, result = .error e → WriteBackFailed g.file g.saved e events
  kept : g.IsBack d → (∀ e, ⟨.file (.readText g.file), .error e⟩ ∉ events) →
    (∀ text a, ⟨.file (.write g.file text), a⟩ ∉ events)
      ∧ ∀ e, result = .error e →
        e ≠ .notFound ∧ ⟨.file (.remove (Backup.path g.file)), .error e⟩ ∈ events

theorem attempt_of_runs (h : Runs World.faulty g.writeBack d events result d')
    (hbackup : g.backup = Backup.path g.file) (hname : EndsIn g.file name) :
  g.Attempt d events result d'
  := by
  obtain ⟨hok, hfailed⟩ := runs_writeBack h hbackup hname
  constructor
  · intro hresult
    obtain ⟨htext, habsent⟩ := hok hresult
    exact ⟨htext, hbackup ▸ habsent⟩
  · apply hfailed
  · intro hback hread
    rw [writeBack] at h
    obtain ⟨before, held, d₁, after, hheld, hrest, rfl⟩ := runs_bind_iff.mp h
    obtain ⟨rfl, r, rfl, hseen, htext⟩ := runs_holdsSaved hheld
    have hsaved : r = .ok g.saved := by
      cases r with
      | error e => exact absurd (by simp) (hread e)
      | ok current => rw [← htext current rfl, hback]
    rw [if_pos (hseen.mpr hsaved)] at hrest
    have hasks : g.removeBackup.Asks fun request => ∀ text, request ≠ .file (.write g.file text) :=
      asks_removeBackup (by simp) (by simp) (by simp)
    constructor
    · intro text a hmem
      have hmem : ⟨.file (.write g.file text), a⟩ ∈ after := by simpa using hmem
      exact hasks.of_mem hrest hmem text rfl
    · intro e hresult
      obtain ⟨hne, hmem⟩ := (runs_removeBackup hrest hbackup hname).2 e hresult
      use hne
      rw [← hbackup]
      apply List.mem_append_right _ hmem

/-! ### From getting a guard to dropping it -/

/-- A guard that cannot be got changes neither the file nor its backup. -/
theorem unchanged_of_runs_acquire {e : FileError}
    (h : Runs World.faulty (acquire file) d events (.error e) d') (hclean : CleansUp events) :
  Unchanged file d d' ∧ Unchanged (Backup.path file) d d'
  := by
  obtain rfl | ⟨saved, htext, hkept, habsent, hremoved⟩ := (runs_acquire h hclean).1 e rfl
  · exact ⟨.refl _ _, .refl _ _⟩
  · use hkept
    apply Unchanged.of_absent hkept.home habsent hremoved

/-- A guard lives on where others change the disk or a restoration fails. -/
inductive Endures : Guard × Disk → Guard × Disk → Prop where
  | change (g : Guard) (d d' : Disk) : Endures (g, d) (g, d')
  | failure {g g' : Guard} {d d' : Disk} {events : List Event} {e : FileError} :
      Runs World.faulty g.restore d events (.error e, g') d' → Endures (g, d) (g', d')

/-- What the calls of a guard do that has not restored its file. -/
structure Armed (g : Guard) (d : Disk) : Prop where
  restore : ∀ {events result g' d'}, Runs World.faulty g.restore d events (result, g') d' →
    g.Attempt d events result d'
      ∧ (result = .ok () → ∀ {d₁ events d₂}, Runs World.faulty g'.drop d₁ events () d₂ →
        events = [] ∧ d₂ = d₁)
  drop : ∀ {events d'}, Runs World.faulty g.drop d events () d' →
    ∃ result, Runs World.faulty g.writeBack d events result d' ∧ g.Attempt d events result d'
  spared : g.restore.SparesBackup g.file g.IsBack d ∧ g.drop.SparesBackup g.file g.IsBack d

/-- A restoration that fails leaves the guard as it was, and one that succeeds is kept in mind. -/
theorem gives_restore_eq :
  g.restore.Gives fun (result, g') =>
    (result = .ok () → g' = { g with restored := true }) ∧ ∀ e, result = .error e → g' = g
  := by
  apply Gives.bind (R := fun _ => True) (Gives.of_forall fun _ => trivial)
  rintro (e | _) -
  · exact ⟨(by rintro ⟨⟩), fun _ _ => rfl⟩
  · exact ⟨fun _ => rfl, by rintro _ ⟨⟩⟩

/-- A guard stays as it is as long as it has not restored its file. -/
theorem eq_of_endures (h : Relation.ReflTransGen Endures (g, d) (g', d')) :
  g' = g
  := by
  generalize hend : (g', d') = after at h
  induction h generalizing g' d' with
  | refl =>
    cases hend
    rfl
  | tail _ hstep ih =>
    cases hend
    cases hstep with
    | change => apply ih rfl
    | failure hrestore =>
      rw [(gives_restore_eq.of_runs hrestore).2 _ rfl]
      apply ih rfl

theorem armed_holding (hname : EndsIn file name) (saved : String) (d : Disk) :
  (Guard.holding file saved).Armed d
  := by
  constructor
  · intro events result g' d' h
    use attempt_of_runs (runs_restore h).2 rfl hname
    intro hresult d₁ events d₂ hdrop
    rw [(gives_restore_eq.of_runs h).1 hresult, drop, if_pos rfl] at hdrop
    obtain ⟨hevents, -, hd⟩ := runs_pure_iff.mp hdrop
    use hevents
  · intro events d' h
    obtain ⟨result, hwriteBack⟩ := runs_drop h rfl
    use result, hwriteBack
    apply attempt_of_runs hwriteBack rfl hname
  · exact ⟨spares_restore hname, spares_drop hname⟩

/-- A guard that cannot be got leaves the file and its backup as they were. One that is got holds
the text of the file, and is `Armed` with it whatever happens to the disk and however often it
fails to restore the file. -/
theorem lifecycle {acquired : Except FileError Guard}
    (h : Runs World.faulty (acquire file) d events acquired d') (hclean : CleansUp events) :
  (∀ e, acquired = .error e → Unchanged file d d' ∧ Unchanged (Backup.path file) d d')
    ∧ (acquire file).SparesBackup file
      (fun d₁ => ∃ saved, d.readText file = .ok saved ∧ d₁.readText file = .ok saved) d
    ∧ ∀ g, acquired = .ok g → ∃ saved, g = .holding file saved ∧ d.readText file = .ok saved
      ∧ ∀ {g₁ d₁}, Relation.ReflTransGen Endures (g, d') (g₁, d₁) → g₁ = g ∧ g₁.Armed d₁
  := by
  refine ⟨?_, spares_acquire, ?_⟩
  · rintro e rfl
    apply unchanged_of_runs_acquire h hclean
  · rintro g rfl
    obtain ⟨saved, rfl, htext, -⟩ := readText_of_runs_acquire h
    obtain ⟨name, hname⟩ := Backup.exists_endsIn (readText_ok_iff.mp htext)
    use saved, rfl, htext
    intro g₁ d₁ hlife
    obtain rfl := eq_of_endures hlife
    use rfl
    apply armed_holding hname

/-- A guard that finds a directory in the place of its file fails to restore it, and restores the
file that stands there later. -/
theorem lifecycle_blocked :
  let before := Disk.single "a.go" "<"
  let taking := (acquire "a.go").run Disk.serve before
  let g := Guard.holding "a.go" "<"
  let blocked := taking.2.put ["home", "a.go"] .directory
  let failing := g.restore.run Disk.serve blocked
  let changed := failing.2.put ["home", "a.go"] (.file (.text ">"))
  let restoring := g.restore.run Disk.serve changed
  CleansUp ((acquire "a.go").events Disk.serve before) ∧ taking.1 = .ok g
    ∧ failing.1 = (.error .isADirectory, g)
    ∧ Relation.ReflTransGen Endures (g, taking.2) (g, changed) ∧ g.Armed changed
    ∧ restoring.1.1 = .ok () ∧ Intact "a.go" "<" restoring.2
  := by
  intro before taking g blocked failing changed restoring
  have hclean : CleansUp ((acquire "a.go").events Disk.serve before) := by decide +kernel
  have htaken : taking.1 = .ok g := by decide +kernel
  have hfailed : failing.1 = (.error .isADirectory, g) := by decide +kernel
  have hrestored : restoring.1.1 = .ok () := by decide +kernel
  have hruns : ∀ {α : Type} (p : Procedure α) (d : Disk), Runs World.faulty p d
      (p.events Disk.serve d) (p.run Disk.serve d).1 (p.run Disk.serve d).2 :=
    fun p d => (runs_run Disk.serve p d).mono World.faulty_of_serve
  have hlife : Relation.ReflTransGen Endures (g, taking.2) (g, changed) := by
    have hfailing := hruns g.restore blocked
    change Runs _ _ _ _ failing.1 _ at hfailing
    rw [hfailed] at hfailing
    have hblocked := Relation.ReflTransGen.single (Endures.change g taking.2 blocked)
    exact (hblocked.tail (.failure hfailing)).tail (.change g failing.2 changed)
  have harmed : g.Armed changed := by
    obtain ⟨saved, -, -, harmed⟩ := (lifecycle (hruns (acquire "a.go") before) hclean).2.2 g htaken
    apply (harmed hlife).2
  use hclean, htaken, hfailed, hlife, harmed, hrestored
  apply (harmed.restore (hruns g.restore changed)).1.intact hrestored

/-! ### Restorations that are hindered -/

/-- Whether an event is that a file could not be written. -/
def isFailedWrite (file : String) : Event → Bool
  | ⟨.file (.write path _), .error _⟩ => path = file
  | _ => false

/-- A restoration that fails where the file of a guard holds the saved text, in some sense, does not
fail because the file cannot be written. -/
def NeverHindered (holds : Guard → Disk → Prop) : Prop :=
  ∀ {file before taking g taken d events e g' d'},
    Runs World.faulty (acquire file) before taking (.ok g) taken → CleansUp taking →
    Relation.ReflTransGen Endures (g, taken) (g, d) → holds g d →
    Runs World.faulty g.restore d events (.error e, g') d' →
    ∀ event ∈ events, isFailedWrite file event = false

/-- Answers requests with a disk that refuses to read and to write one file. -/
def serveLocked (file : String) : (request : Request) → Disk → request.Answer × Disk
  | .file (.readText path), d =>
    if path = file then (.error .permissionDenied, d) else d.perform (.readText path)
  | .file (.write path text), d =>
    if path = file then (.error .permissionDenied, d) else d.perform (.write path text)
  | request, d => Disk.serve request d

theorem faulty_of_serveLocked (request : Request) (d : Disk) (a : request.Answer) (d' : Disk)
    (h : World.ofAnswer (serveLocked file) request d a d') :
  World.faulty request d a d'
  := by
  have hserve : World.ofAnswer Disk.serve request d a d' → World.faulty request d a d' :=
    World.faulty_of_serve request d a d'
  cases request with
  | file operation =>
    cases operation with
    | readText path =>
      rw [World.ofAnswer, serveLocked] at h
      split at h
      · cases h
        exact .inr ⟨⟨_, rfl⟩, rfl⟩
      · apply hserve h
    | write path text =>
      rw [World.ofAnswer, serveLocked] at h
      split at h
      · cases h
        exact .inr ⟨⟨_, rfl⟩, .inl rfl⟩
      · apply hserve h
    | isPresent | isDirectory | create | fill | copy | remove | makeDirectories | list | identify =>
      apply hserve h
  | consult | launch | isInterrupted | clock | print => apply hserve h

/-- A guard is hindered that fails to write its file where this holds the saved text. -/
theorem not_neverHindered {holds : Guard → Disk → Prop} (file saved : String) (e : FileError)
    (before d : Disk) (answer : (request : Request) → Disk → request.Answer × Disk)
    (hanswer : ∀ request d a d', World.ofAnswer answer request d a d' →
      World.faulty request d a d')
    (htaken : ((acquire file).run Disk.serve before).1 = .ok (holding file saved))
    (hclean : CleansUp ((acquire file).events Disk.serve before))
    (hholds : holds (holding file saved) d)
    (hfailed : ((holding file saved).restore.run answer d).1 = (.error e, holding file saved))
    (hwrite : ((holding file saved).restore.events answer d).any (isFailedWrite file) = true) :
  ¬NeverHindered holds
  := by
  intro h
  obtain ⟨event, hmem, hevent⟩ := List.any_eq_true.mp hwrite
  have htaking := (runs_run Disk.serve (acquire file) before).mono World.faulty_of_serve
  rw [htaken] at htaking
  have hrestoring := (runs_run answer (holding file saved).restore d).mono hanswer
  rw [hfailed] at hrestoring
  have hnever := h htaking hclean (.single (.change _ _ d)) hholds hrestoring event hmem
  cases hevent.symm.trans hnever

/-- A restoration that cannot read the file writes it, and fails if that is refused too, although
the file holds the saved text. Without any refusal it fails where the path of the guard has led
through a directory that is there no more, although the file at its place holds the saved text. -/
theorem not_lifecycle :
  ¬NeverHindered IsBack
    ∧ ¬NeverHindered fun g d => d.lookup? (place d.home g.file) = some (.file (.text g.saved))
  := by
  constructor
  · let before := Disk.single "a.go" "<"
    let taken := ((acquire "a.go").run Disk.serve before).2
    have hback : taken.readText "a.go" = .ok "<" := by
      decide +kernel
    apply not_neverHindered "a.go" "<" .permissionDenied before taken
      (serveLocked "a.go") faulty_of_serveLocked (by decide +kernel) (by decide +kernel) hback
    · decide +kernel
    · decide +kernel
  · let before := (Disk.single "a.go" "<").put ["home", "d"] .directory
    let taken := ((acquire "d/../a.go").run Disk.serve before).2
    apply not_neverHindered "d/../a.go" "<" .notFound before (taken.erase ["home", "d"])
      Disk.serve World.faulty_of_serve (by decide +kernel) (by decide +kernel)
    · decide +kernel
    · decide +kernel
    · decide +kernel

end Guard

end MutationTesting
