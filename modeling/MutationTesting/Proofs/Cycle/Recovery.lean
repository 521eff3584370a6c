import MutationTesting.Batch
import MutationTesting.Proofs.Cycle.Outline
import MutationTesting.Proofs.Cycle.Requests
import MutationTesting.Proofs.Cycle.Restoration

/-!
# Recovery from a cycle that was killed

A cycle that is killed between two requests leaves its file `Intact`, or `BackedUp` with a
backup from which `Batch.recover` puts the text back. There is one exception: a backup that
has just been made is still empty, and recovery then empties the file.
-/

namespace MutationTesting

open Disk Procedure

/-- A file holds a text and has no backup. -/
structure Intact (file text : String) (d : Disk) : Prop where
  content : d.readText file = .ok text
  backup : d.isPresent (Backup.path file) = false

/-- The backup of a file holds a text, and the file holds something. -/
structure BackedUp (file text : String) (d : Disk) : Prop where
  content : ∃ content, d.readContent file = .ok content
  backup : d.readText (Backup.path file) = .ok text

variable {file text : String} {d d' : Disk}

theorem Intact.of_unchanged (h : Intact file text d) (hfile : Unchanged file d d')
    (hbackup : Unchanged (Backup.path file) d d') :
  Intact file text d'
  := by
  constructor
  · apply hfile.readText_iff.mpr h.content
  · rw [hbackup.present, h.backup]

theorem BackedUp.of_unchanged (h : BackedUp file text d) (hfile : Unchanged file d d')
    (hbackup : Unchanged (Backup.path file) d d') :
  BackedUp file text d'
  := by
  obtain ⟨⟨content, hcontent⟩, h⟩ := h
  constructor
  · use content
    apply hfile.content.mpr hcontent
  · apply hbackup.readText_iff.mpr h

/-! ### Operations of a cycle -/

/-- Making the backup of a file leaves the file alone. -/
theorem Intact.create (h : Intact file text d)
    (hcreate : d.perform (.create (Backup.path file)) = (.ok (), d')) :
  d'.readText file = .ok text ∧ BackedUp file "" d'
  := by
  obtain ⟨name, hname⟩ := Backup.exists_endsIn (readText_ok_iff.mp h.content)
  have hcreated := Yields.create_ok (.inl hcreate)
  have hkept := Backup.unchanged_of_endsIn hname (Yields.touched (.inl hcreate) rfl)
  have htext := hkept.readText_iff.mpr h.content
  use htext
  constructor
  · use .text text
    apply readText_ok_iff.mp htext
  · apply readText_ok_iff.mpr (readContent_of_create hcreated)

namespace BackedUp

variable {text' : String} {a : Except FileError Unit}

/-- Filling the backup leaves the file alone. -/
theorem fill (h : BackedUp file text d)
    (hfill : d.perform (.fill (Backup.path file) text') = (a, d')) :
  a = .ok () ∧ BackedUp file text' d'
  := by
  obtain ⟨⟨content, hcontent⟩, hbackup⟩ := h
  obtain ⟨name, hname⟩ := Backup.exists_endsIn hcontent
  obtain ⟨rfl, htext⟩ := readText_of_perform_fill (readText_ok_iff.mp hbackup) hfill
  have hkept := Backup.unchanged_of_endsIn hname (Yields.touched (.inl hfill) rfl)
  use rfl
  constructor
  · use content
    apply hkept.content.mpr hcontent
  · apply htext

/-- Writing the file leaves the backup alone. -/
theorem write (h : BackedUp file text d) (hwrite : d.perform (.write file text') = (a, d')) :
  a = .ok () ∧ d'.readText file = .ok text' ∧ BackedUp file text d'
  := by
  obtain ⟨⟨content, hcontent⟩, hbackup⟩ := h
  obtain ⟨name, hname⟩ := Backup.exists_endsIn hcontent
  obtain ⟨rfl, htext⟩ := readText_of_perform_write hcontent hwrite
  have hkept := Backup.unchanged_path_of_endsIn hname (Yields.touched (.inl hwrite) rfl)
  use rfl, htext
  constructor
  · use .text text'
    apply readText_ok_iff.mp htext
  · apply hkept.readText_iff.mpr hbackup

/-- Removing the backup leaves the file alone. -/
theorem remove (h : BackedUp file text d) (htext : d.readText file = .ok text')
    (hremove : d.perform (.remove (Backup.path file)) = (a, d')) :
  a = .ok () ∧ Intact file text' d'
  := by
  obtain ⟨name, hname⟩ := Backup.exists_endsIn (readText_ok_iff.mp htext)
  obtain ⟨rfl, habsent⟩ := isPresent_of_perform_remove (readText_ok_iff.mp h.backup) hremove
  have hkept := Backup.unchanged_of_endsIn hname (Yields.touched (.inl hremove) rfl)
  use rfl
  constructor
  · apply hkept.readText_iff.mpr htext
  · apply habsent

end BackedUp

/-! ### Recovery -/

variable {m : Mutation} {events : List Event}

theorem Backup.runs_interrupted {found : Option String}
    (h : Runs (World.ofAnswer Disk.serve) (Backup.interrupted? file) d events found d') :
  d' = d ∧ found = if d.isPresent (Backup.path file) then some (Backup.path file) else none
  := by
  rw [Backup.interrupted?] at h
  obtain ⟨_, _, _, ⟨⟩, hdone, rfl⟩ := runs_request_iff.mp h
  obtain ⟨-, rfl, rfl⟩ := runs_pure_iff.mp hdone
  use rfl

/-- Without a backup there is nothing to recover. -/
theorem Batch.recover_of_absent (h : d.isPresent (Backup.path m.file) = false) :
  ((Batch.recover m).run Disk.serve d).2 = d
  := by
  have hruns := runs_run Disk.serve (Batch.recover m) d
  generalize ((Batch.recover m).run Disk.serve d).2 = d' at hruns ⊢
  rw [Batch.recover] at hruns
  obtain ⟨_, found, d₁, _, hfound, hrest, -⟩ := runs_bind_iff.mp hruns
  obtain ⟨rfl, rfl⟩ := Backup.runs_interrupted hfound
  rw [h] at hrest
  apply (runs_pure_iff.mp hrest).2.2

/-- Restoring a file from a backup lets the file hold what the backup holds. -/
theorem Backup.readText_of_restore {result : Except FileError Unit} (h : BackedUp file text d)
    (hruns : Runs (World.ofAnswer Disk.serve) (Backup.restore file (Backup.path file)) d events
      result d') :
  d'.readText file = .ok text
  := by
  obtain ⟨⟨content, hcontent⟩, hbackup⟩ := h
  obtain ⟨name, hname⟩ := Backup.exists_endsIn hcontent
  have hbackup := readText_ok_iff.mp hbackup
  obtain ⟨d₁, hwrite⟩ := exists_writeContent hcontent (.text text)
  obtain ⟨d₂, hcopy⟩ := exists_copy hbackup hwrite
  rw [Backup.restore] at hruns
  obtain ⟨copied, d₃, _, hperform, hrest, -⟩ := runs_request_iff.mp hruns
  obtain ⟨rfl, rfl⟩ : copied = .ok () ∧ d₃ = d₂ := by
    simpa [World.ofAnswer, serve, perform, hcopy, commit, eq_comm] using hperform
  have htext := readText_ok_iff.mpr (readContent_of_copy hbackup hcopy)
  obtain ⟨a, d₄, _, hremove, hnext, -⟩ := runs_request_iff.mp hrest
  have htouched := Yields.touched (World.faulty_of_serve _ _ _ _ hremove) rfl
  have hkept := Backup.unchanged_of_endsIn hname htouched
  cases a with
  | error e =>
    obtain ⟨-, -, rfl⟩ := runs_pure_iff.mp hnext
    apply hkept.readText_iff.mpr htext
  | ok =>
    obtain ⟨_, _, d₅, _, hclear, hdone, -⟩ := runs_bind_iff.mp hnext
    obtain ⟨-, -, rfl⟩ := runs_pure_iff.mp hdone
    have hcleared := Backup.unchanged_of_clearCompiledCode hname
      (hclear.mono World.faulty_of_serve)
    apply (hkept.trans hcleared.1).readText_iff.mpr htext

/-- A file gets what its backup holds. -/
theorem Batch.readText_recover (h : BackedUp m.file text d) :
  ((Batch.recover m).run Disk.serve d).2.readText m.file = .ok text
  := by
  have hruns := runs_run Disk.serve (Batch.recover m) d
  generalize ((Batch.recover m).run Disk.serve d).2 = d' at hruns ⊢
  rw [Batch.recover] at hruns
  obtain ⟨_, found, d₁, _, hfound, hrest, -⟩ := runs_bind_iff.mp hruns
  obtain ⟨rfl, rfl⟩ := Backup.runs_interrupted hfound
  rw [isPresent_of_readContent (readText_ok_iff.mp h.backup)] at hrest
  obtain ⟨_, result, d₂, _, hrestore, hdone, -⟩ := runs_bind_iff.mp hrest
  obtain ⟨-, -, rfl⟩ := runs_pure_iff.mp hdone
  apply Backup.readText_of_restore h hrestore

/-! ### Killed cycles -/

/-- The backup of a file has been made. -/
abbrev Event.made (file : String) : Event := ⟨.file (.create (Backup.path file)), .ok ()⟩

/-- The text of a file can be had, where recovery is needed by recovering it. -/
def Recoverable (m : Mutation) (text : String) (d : Disk) : Prop :=
  (d.isPresent (Backup.path m.file) = false ∧ d.readText m.file = .ok text)
    ∨ ((Batch.recover m).run Disk.serve d).2.readText m.file = .ok text

instance (m : Mutation) (text : String) (d : Disk) : Decidable (Recoverable m text d) :=
  inferInstanceAs (Decidable (_ ∨ _))

/-- What a request of a cycle makes of a disk. -/
inductive Sound (file text : String) (event : Event) (d : Disk) : Prop where
  /-- The file holds its text and an empty backup has been made. -/
  | made : event = .made file → d.readText file = .ok text → BackedUp file "" d →
      Sound file text event d
  | intact : event ≠ .made file → Intact file text d → Sound file text event d
  | backedUp : event ≠ .made file → BackedUp file text d → Sound file text event d

/-- The stages of a cycle by what the file and its backup hold. -/
def recoveryOutline (file text : String) :
    Outline (World.sparing [file, Backup.path file]) Eq
      (fun _ event d => Sound file text event d) file where
  Free := Intact file text
  Read saved d := saved = text ∧ Intact file text d
  Made saved d := saved = text ∧ d.readText file = .ok text ∧ BackedUp file "" d
  Held saved d := saved = text ∧ BackedUp file text d
  Back saved d := saved = text ∧ d.readText file = .ok text ∧ BackedUp file text d
  rely_refl _ := rfl
  free_stable := by
    rintro d _ rfl h
    exact h
  read_stable := by
    rintro d _ saved rfl h
    exact h
  made_stable := by
    rintro d _ saved rfl h
    exact h
  held_stable := by
    rintro d _ saved rfl h
    exact h
  back_stable := by
    rintro d _ saved rfl h
    exact h
  clock := by
    rintro d d' a hintact rfl
    use .intact (by simp) hintact
  read := by
    rintro d d' a hintact hread
    obtain ⟨rfl, hsaved⟩ := Yields.readText (.inl hread)
    use .intact (by simp) hintact, hintact
    rintro saved rfl
    use Except.ok.inj ((hsaved saved rfl).symm.trans hintact.content)
  create := by
    rintro d d' _ a ⟨rfl, hintact⟩ hcreate
    cases a with
    | error e =>
      obtain rfl := Yields.create_error (.inl hcreate)
      use .intact (by simp) hintact
      constructor
      · simp
      · intro _ _
        exact hintact
    | ok =>
      obtain ⟨htext, hempty⟩ := hintact.create hcreate
      use .made rfl htext hempty
      constructor
      · intro _
        use rfl, htext
      · simp
  fill := by
    rintro d d' _ a ⟨rfl, -, hempty⟩ hfill
    obtain ⟨rfl, hbackedUp⟩ := hempty.fill hfill
    use rfl, .backedUp (by simp) hbackedUp, rfl
  write := by
    rintro d d' _ text' a ⟨rfl, hbackedUp⟩ hwrite
    obtain ⟨rfl, htext, hbackedUp⟩ := hbackedUp.write hwrite
    use rfl, .backedUp (by simp) hbackedUp, ⟨rfl, hbackedUp⟩
    rintro rfl
    use rfl, htext
  consult := by
    rintro d d' _ scope limit a ⟨rfl, hbackedUp⟩ hconsult
    have hbackedUp := hbackedUp.of_unchanged (hconsult _ (by simp)) (hconsult _ (by simp))
    use .backedUp (by simp) hbackedUp, rfl
  reread := by
    rintro d d' _ a ⟨rfl, hbackedUp⟩ hread
    obtain ⟨rfl, hsaved⟩ := Yields.readText (.inl hread)
    use .backedUp (by simp) hbackedUp, ⟨rfl, hbackedUp⟩
    intro ha
    use rfl, hsaved _ ha
  remove := by
    rintro d d' _ a ⟨rfl, htext, hbackedUp⟩ hremove
    obtain ⟨rfl, hintact⟩ := hbackedUp.remove htext hremove
    use rfl, .intact (by simp) hintact
  list := by
    rintro d d' cache a hintact hlist
    obtain rfl := Yields.list (.inl hlist)
    use .intact (by simp) hintact
  removeCompiled := by
    rintro d d' path a hcompiled hintact hremove
    obtain ⟨name, hname⟩ := Backup.exists_endsIn (readText_ok_iff.mp hintact.content)
    obtain ⟨hfile, hbackup⟩ := hcompiled.unchanged hname (Yields.touched (.inl hremove) rfl)
    have hintact := hintact.of_unchanged hfile hbackup
    use .intact (by simp) hintact

namespace Sound

variable {event : Event}

/-- After a request of a cycle the text can be had, unless the backup has just been made and
is not to stay empty. -/
theorem recoverable_iff_not_made (h : Sound m.file text event d) :
  Recoverable m text d ↔ ¬(event = .made m.file ∧ text ≠ "")
  := by
  cases h with
  | made hevent htext hempty =>
    have hpresent := isPresent_of_readContent (readText_ok_iff.mp hempty.backup)
    rw [Recoverable, Batch.readText_recover hempty]
    simp [hpresent, hevent, eq_comm]
  | intact hevent hintact =>
    simp [Recoverable, hevent, hintact.content, hintact.backup]
  | backedUp hevent hbackedUp =>
    simp [Recoverable, hevent, Batch.readText_recover hbackedUp]

end Sound

/-- Wherever a cycle is killed, the text of its file can be had, except where the last that was
done is to make the backup, and the text is not empty. -/
theorem Cycle.recoverable_iff {parser : Parser} {options : CycleOptions} {events : List Event}
    {rest : Procedure CycleRun} (htext : d.readText m.file = .ok text)
    (habsent : d.isPresent (Backup.path m.file) = false)
    (h : Reaches (World.sparing [m.file, Backup.path m.file]) (Cycle.run parser m options) d events
      rest d') :
  Recoverable m text d' ↔ ¬(events.getLast? = some (.made m.file) ∧ text ≠ "")
  := by
  have hintact : Intact m.file text d := ⟨htext, habsent⟩
  have hensures : Ensures _ _ _ _ (Cycle.run parser m options) d :=
    (recoveryOutline m.file text).ensures_run rfl hintact
  obtain ⟨rfl, rfl⟩ | ⟨before, event, d₁, rfl, hsound⟩ :=
    hensures.last_step (fun _ => rfl) h
  · simp [Recoverable, htext, habsent]
  · simp [hsound.recoverable_iff_not_made]

/-- A cycle that is killed while its mutant is in the file leaves a disk on which the text can be
had. -/
theorem Cycle.recoverable_of_mutant :
  let m := Mutation.atStart "a.go" "<" ">"
  let killed := (Cycle.run Parser.single m .plain).advance Disk.serve 5 (.single "a.go" "<")
  killed.2.2.readText "a.go" = .ok ">" ∧ Recoverable m "<" killed.2.2
  := by
  intro m killed
  have hreach := (reaches_advance Disk.serve 5 (Cycle.run Parser.single m .plain)
    (.single "a.go" "<")).mono (World.sparing_of_serve ["a.go", Backup.path "a.go"])
  have hlast : killed.1.getLast?.map (·.1.isSettling) = some true := by
    decide +kernel
  have hmutant : killed.2.2.readText "a.go" = .ok ">" := by
    decide +kernel
  use hmutant
  apply (Cycle.recoverable_iff (by decide +kernel) (by decide +kernel) hreach).mpr
  rintro ⟨hmade, -⟩
  rw [hmade] at hlast
  cases hlast

/-- A cycle on a file with a text that is killed where the backup has just been made leaves a
disk on which recovery empties the file. -/
theorem Cycle.not_recoverable :
  ¬∀ (parser : Parser) (m : Mutation) (options : CycleOptions) (text : String) (d d' : Disk)
    (events : List Event) (rest : Procedure CycleRun), d.readText m.file = .ok text →
    d.isPresent (Backup.path m.file) = false →
    Reaches (World.sparing [m.file, Backup.path m.file]) (Cycle.run parser m options) d events
      rest d' → Recoverable m text d'
  := by
  intro h
  let m := Mutation.atStart "a.go" "<" ">"
  let d := Disk.single "a.go" "<"
  have hreach := (reaches_advance Disk.serve 3 (Cycle.run Parser.single m .plain) d).mono
    (World.sparing_of_serve ["a.go", Backup.path "a.go"])
  have hrecoverable := h _ m _ "<" d _ _ _ (by decide +kernel) (by decide +kernel) hreach
  revert hrecoverable
  decide +kernel

end MutationTesting
