import MutationTesting.Cycle
import MutationTesting.Proofs.Backup

/-!
# Outlines of cycles

An `Outline` says what holds at each stage of a cycle: while the file is free, after its text
was read, while its backup is made, while a guard holds it, and when its text is back. Each
stage survives what may happen between two requests, and each request leads from one stage
to another. A cycle that starts from a free file then goes through these stages.
-/

namespace MutationTesting

open Procedure

/-- The stages of a cycle on a file, in a world where a backup that was made can be filled, a
file that is held can be written and a backup removed. -/
structure Outline {σ : Type} (w : World σ) (rely : σ → σ → Prop) (step : σ → Event → σ → Prop)
    (file : String) where
  /-- No guard holds the file for this cycle. -/
  Free : σ → Prop
  /-- The file has been found to hold a text. -/
  Read : String → σ → Prop
  /-- The backup has been made and is to be filled with a text. -/
  Made : String → σ → Prop
  /-- A guard holds the file with a saved text. -/
  Held : String → σ → Prop
  /-- The saved text is back in the file. -/
  Back : String → σ → Prop
  rely_refl : ∀ s, rely s s
  free_stable : ∀ {s s'}, rely s s' → Free s → Free s'
  read_stable : ∀ {s s' saved}, rely s s' → Read saved s → Read saved s'
  made_stable : ∀ {s s' saved}, rely s s' → Made saved s → Made saved s'
  held_stable : ∀ {s s' saved}, rely s s' → Held saved s → Held saved s'
  back_stable : ∀ {s s' saved}, rely s s' → Back saved s → Back saved s'
  clock : ∀ {s s' a}, Free s → w .clock s a s' → step s ⟨.clock, a⟩ s' ∧ Free s'
  read : ∀ {s s' a}, Free s → w (.file (.readText file)) s a s' →
    step s ⟨.file (.readText file), a⟩ s' ∧ Free s' ∧ ∀ saved, a = .ok saved → Read saved s'
  create : ∀ {s s' saved a}, Read saved s → w (.file (.create (Backup.path file))) s a s' →
    step s ⟨.file (.create (Backup.path file)), a⟩ s'
      ∧ (a = .ok () → Made saved s') ∧ ∀ e, a = .error e → Free s'
  fill : ∀ {s s' saved a}, Made saved s → w (.file (.fill (Backup.path file) saved)) s a s' →
    a = .ok () ∧ step s ⟨.file (.fill (Backup.path file) saved), a⟩ s' ∧ Held saved s'
  write : ∀ {s s' saved text a}, Held saved s → w (.file (.write file text)) s a s' →
    a = .ok () ∧ step s ⟨.file (.write file text), a⟩ s' ∧ Held saved s'
      ∧ (text = saved → Back saved s')
  consult : ∀ {s s' saved scope limit a}, Held saved s → w (.consult scope limit) s a s' →
    step s ⟨.consult scope limit, a⟩ s' ∧ Held saved s'
  reread : ∀ {s s' saved a}, Held saved s → w (.file (.readText file)) s a s' →
    step s ⟨.file (.readText file), a⟩ s' ∧ Held saved s' ∧ (a = .ok saved → Back saved s')
  remove : ∀ {s s' saved a}, Back saved s → w (.file (.remove (Backup.path file))) s a s' →
    a = .ok () ∧ step s ⟨.file (.remove (Backup.path file)), a⟩ s' ∧ Free s'
  list : ∀ {s s' cache a}, Free s → w (.file (.list cache)) s a s' →
    step s ⟨.file (.list cache), a⟩ s' ∧ Free s'
  removeCompiled : ∀ {s s' path a}, Backup.IsCompiled file path → Free s →
    w (.file (.remove path)) s a s' → step s ⟨.file (.remove path), a⟩ s' ∧ Free s'

namespace Outline

variable {σ : Type} {w : World σ} {rely : σ → σ → Prop} {step : σ → Event → σ → Prop}
  {file saved : String} {s : σ} (o : Outline w rely step file)

include o

/-- A cycle gets hold of the file or leaves it free. -/
theorem ensures_acquire (h : o.Free s) :
  Ensures w rely step
    (fun acquired s => match acquired with
      | .ok g => g.file = file ∧ g.backup = Backup.path file ∧ g.restored = false
        ∧ o.Held g.saved s
      | .error _ => o.Free s) (Guard.acquire file) s
  := by
  apply Ensures.request
  intro s₁ hs₁ a s₂ hread
  obtain ⟨hstep, hfree, hread⟩ := o.read (o.free_stable hs₁ h) hread
  use hstep
  cases a with
  | error e =>
    intro s₃ hs₃
    apply o.free_stable hs₃ hfree
  | ok saved =>
    apply Ensures.request
    intro s₃ hs₃ a s₄ hcreate
    obtain ⟨hstep, hmade, hfree⟩ := o.create (o.read_stable hs₃ (hread saved rfl)) hcreate
    use hstep
    cases a with
    | error e =>
      intro s₅ hs₅
      apply o.free_stable hs₅ (hfree e rfl)
    | ok =>
      apply Ensures.request
      intro s₅ hs₅ a s₆ hfill
      obtain ⟨rfl, hstep, hheld⟩ := o.fill (o.made_stable hs₅ (hmade rfl)) hfill
      use hstep
      intro s₇ hs₇
      use rfl, rfl, rfl
      apply o.held_stable hs₇ hheld

variable {g : Guard}

theorem ensures_removeBackup (hfile : g.file = file) (hbackup : g.backup = Backup.path file)
    (h : o.Back saved s) :
  Ensures w rely step (fun result s => result = .ok () ∧ o.Free s) g.removeBackup s
  := by
  rw [Guard.removeBackup, hfile, hbackup]
  apply Ensures.request
  intro s₁ hs₁ a s₂ hremove
  obtain ⟨rfl, hstep, hfree⟩ := o.remove (o.back_stable hs₁ h) hremove
  use hstep
  apply Ensures.bind o.rely_refl
  have hclear : Ensures w rely step (fun _ s => o.Free s) (Backup.clearCompiledCode file) s₂ := by
    apply Backup.ensures_clearCompiledCode
    · intro s s' hs hfree
      apply o.free_stable hs hfree
    · intro cache s a s' hlist hfree
      apply o.list hfree hlist
    · intro path hcompiled s a s' hremove hfree
      apply o.removeCompiled hcompiled.isCompiled hfree hremove
    · apply hfree
  apply hclear.mono
  intro _ s₃ hfree s₄ hs₄
  use rfl
  apply o.free_stable hs₄ hfree

theorem ensures_holdsSaved (hfile : g.file = file) (h : o.Held g.saved s) :
  Ensures w rely step (fun held s => o.Held g.saved s ∧ (held = true → o.Back g.saved s))
    g.holdsSaved s
  := by
  rw [Guard.holdsSaved, hfile]
  apply Ensures.request
  intro s₁ hs₁ a s₂ hread
  obtain ⟨hstep, hheld, hback⟩ := o.reread (o.held_stable hs₁ h) hread
  use hstep
  cases a with
  | error e =>
    intro s₃ hs₃
    use o.held_stable hs₃ hheld
    intro hfalse
    cases hfalse
  | ok text =>
    intro s₃ hs₃
    use o.held_stable hs₃ hheld
    intro heq
    apply o.back_stable hs₃ (hback _)
    rw [beq_iff_eq.mp heq]

/-- A guard gives its file free again. -/
theorem ensures_writeBack (hfile : g.file = file) (hbackup : g.backup = Backup.path file)
    (h : o.Held g.saved s) :
  Ensures w rely step (fun result s => result = .ok () ∧ o.Free s) g.writeBack s
  := by
  rw [Guard.writeBack]
  apply Ensures.bind o.rely_refl
  apply (o.ensures_holdsSaved hfile h).mono
  rintro held s₁ ⟨hheld, hback⟩
  split
  · next hsaved => apply o.ensures_removeBackup hfile hbackup (hback hsaved)
  · apply Ensures.request
    intro s₂ hs₂ a s₃ hwrite
    rw [hfile] at hwrite ⊢
    obtain ⟨rfl, hstep, -, hback⟩ := o.write (o.held_stable hs₂ hheld) hwrite
    use hstep
    apply o.ensures_removeBackup hfile hbackup (hback rfl)

theorem ensures_restore (hfile : g.file = file) (hbackup : g.backup = Backup.path file)
    (h : o.Held g.saved s) :
  Ensures w rely step (fun result s => result.1 = .ok () ∧ o.Free s) g.restore s
  := by
  apply Ensures.bind o.rely_refl
  apply (o.ensures_writeBack hfile hbackup h).mono
  rintro result s₁ ⟨rfl, hfree⟩ s₂ hs₂
  use rfl
  apply o.free_stable hs₂ hfree

theorem ensures_drop (hfile : g.file = file) (hbackup : g.backup = Backup.path file)
    (hrestored : g.restored = false) (h : o.Held g.saved s) :
  Ensures w rely step (fun _ s => o.Free s) g.drop s
  := by
  rw [Guard.drop, hrestored]
  apply Ensures.bind o.rely_refl
  apply (o.ensures_writeBack hfile hbackup h).mono
  rintro result s₁ ⟨-, hfree⟩ s₂ hs₂
  apply o.free_stable hs₂ hfree

variable {parser : Parser} {m : Mutation} {options : CycleOptions}

/-- A file stays held while its mutant is written and tested. -/
theorem ensures_mutateAndTest (hfile : g.file = file) (h : o.Held g.saved s) :
  Ensures w rely step (fun _ s => o.Held g.saved s) (Cycle.mutateAndTest parser m g options) s
  := by
  rw [Cycle.mutateAndTest, hfile]
  split
  · intro s₁ hs₁
    apply o.held_stable hs₁ h
  · apply Ensures.request
    intro s₁ hs₁ a s₂ hwrite
    obtain ⟨rfl, hstep, hheld, -⟩ := o.write (o.held_stable hs₁ h) hwrite
    use hstep
    simp only
    split
    · intro s₃ hs₃
      apply o.held_stable hs₃ hheld
    · apply Ensures.request
      intro s₃ hs₃ a s₄ hconsult
      obtain ⟨hstep, hheld⟩ := o.consult (o.held_stable hs₃ hheld) hconsult
      use hstep
      cases a <;> (intro s₅ hs₅; apply o.held_stable hs₅ hheld)

theorem ensures_report {finding : Cycle.Finding} {start : Duration} (h : o.Free s) :
  Ensures w rely step (fun _ s => o.Free s) (Cycle.report m finding start options) s
  := by
  apply Ensures.request
  intro s₁ hs₁ a s₂ hclock
  obtain ⟨hstep, hfree⟩ := o.clock (o.free_stable hs₁ h) hclock
  use hstep
  intro s₃ hs₃
  apply o.free_stable hs₃ hfree

/-- A cycle on a file that is free goes through the stages and leaves the file free. -/
theorem ensures_run (hm : m.file = file) (h : o.Free s) :
  Ensures w rely step (fun _ s => o.Free s) (Cycle.run parser m options) s
  := by
  have hreport : ∀ {finding start s} {f : TestResult → CycleRun}, o.Free s →
      Ensures w rely step (fun _ s => o.Free s)
        (do let result ← Cycle.report m finding start options; return f result) s := by
    intro finding start s f hfree
    apply Ensures.bind o.rely_refl
    apply (o.ensures_report hfree).mono
    intro _ s₁ hfree s₂ hs₂
    apply o.free_stable hs₂ hfree
  apply Ensures.request
  intro s₁ hs₁ start s₂ hclock
  obtain ⟨hstep, hfree⟩ := o.clock (o.free_stable hs₁ h) hclock
  use hstep
  rw [hm]
  apply Ensures.bind o.rely_refl
  apply (o.ensures_acquire hfree).mono
  intro acquired s₃ hacquired
  cases acquired with
  | error e => apply hreport hacquired
  | ok g =>
    obtain ⟨hfile, hbackup, hrestored, hheld⟩ := hacquired
    apply Ensures.bind o.rely_refl
    apply (o.ensures_mutateAndTest hfile hheld).mono
    rintro ⟨found, states⟩ s₄ hheld
    cases found with
    | error message =>
      apply Ensures.bind o.rely_refl
      apply (o.ensures_drop hfile hbackup hrestored hheld).mono
      intro _ s₅ hfree s₆ hs₆
      apply o.free_stable hs₆ hfree
    | ok finding =>
      apply Ensures.bind o.rely_refl
      apply (o.ensures_restore hfile hbackup hheld).mono
      rintro ⟨result, g'⟩ s₅ ⟨rfl, hfree⟩
      apply hreport hfree

end Outline

end MutationTesting
