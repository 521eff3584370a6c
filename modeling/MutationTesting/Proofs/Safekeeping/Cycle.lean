import MutationTesting.Command
import MutationTesting.Proofs.Cycle.Requests
import MutationTesting.Proofs.Cycle.Restoration
import MutationTesting.Proofs.Procedure.Run
import MutationTesting.Proofs.Safekeeping.Targets

/-!
# Cycles keep their target

A cycle on a target, and the restoration of a target from its backup, are `Watched`: whatever
fails on the way, each of their requests leaves the target safe, except between the making of the
backup and its filling, and the tests are run only while the target holds the mutant of its text.
-/

namespace MutationTesting

open Disk Procedure

/-- Whether an event leaves a backup that was made and is not filled. -/
def Event.isUnfinished : Event → Bool
  | ⟨.file (.create _), .ok _⟩ | ⟨.file (.fill _ _), .error _⟩ => true
  | _ => false

/-- An event leaves a target safe, unless it leaves the backup unfinished, and tests are run only
on some disks. -/
structure Watched (file text : String) (home : Location) (tested : Disk → Prop) (d : Disk)
    (event : Event) (d' : Disk) : Prop where
  safe : event.isUnfinished = false → Safe file text home d'
  trial : event.1.isTrial = true → tested d

/-- After something was done to settle a file it is safe and as it was, and if that failed it still
has its backup. -/
structure Settled (file text : String) (home : Location) (result : Except FileError Unit)
    (d : Disk) : Prop where
  safe : Safe file text home d
  intact : result = .ok () → Intact file text d
  held : ∀ {e}, result = .error e → Held file text home d

variable {targets : Set String} {file text saved name : String} {home : Location}
  {tested : Disk → Prop} {d d' : Disk}

theorem Watched.of_safe {event : Event} (h : Safe file text home d')
    (htrial : event.1.isTrial = false) :
  Watched file text home tested d event d'
  := by
  constructor
  · exact fun _ => h
  · intro htrue
    cases htrue.symm.trans htrial

theorem Watched.of_unfinished {event : Event} (h : event.isUnfinished = true)
    (htrial : event.1.isTrial = false) :
  Watched file text home tested d event d'
  := by
  constructor
  · intro hfalse
    cases hfalse.symm.trans h
  · intro htrue
    cases htrue.symm.trans htrial

namespace Held

variable {a : Except FileError Unit}

theorem of_unchanged (h : Held file text home d)
    (hunchanged : Unchanged file d d' ∧ Unchanged (Backup.path file) d d') :
  Held file text home d'
  := by
  use h.toBackedUp.of_unchanged hunchanged.1 hunchanged.2
  rw [hunchanged.1.home, h.home]

/-- What is done to the file leaves the backup alone, as long as there is a file. -/
theorem of_touched (h : Held file text home d) (htouched : Touched file d d')
    (hread : ∃ content, d'.readContent file = .ok content) :
  Held file text home d'
  := by
  obtain ⟨content, hcontent⟩ := h.content
  have hkept := Backup.unchanged_path_of_touched hcontent htouched
  constructor
  · use hread
    apply hkept.readText_iff.mpr h.backup
  · rw [htouched.home, h.home]

theorem write (h : Held file text home d) (hwrite : d.Yields (.write file saved) a d') :
  Held file text home d' ∧ (a = .ok () → d'.readText file = .ok saved)
  := by
  obtain ⟨content, hcontent⟩ := h.content
  use h.of_touched (hwrite.touched rfl) (hwrite.exists_readContent_of_write hcontent)
  rintro rfl
  apply readText_ok_iff.mpr hwrite.write_ok

theorem copy (h : Held file text home d)
    (hcopy : d.Yields (.copy (Backup.path file) file) a d') :
  Held file text home d' ∧ (a = .ok () → d'.readText file = .ok text)
  := by
  obtain ⟨content, hcontent⟩ := h.content
  use h.of_touched (hcopy.touched rfl) (hcopy.exists_readContent_of_copy hcontent)
  rintro rfl
  apply readText_ok_iff.mpr (hcopy.copy_ok (readText_ok_iff.mp h.backup))

/-- The backup can be removed when the file holds its text. -/
theorem remove (h : Held file text home d) (htext : d.readText file = .ok text)
    (hremove : d.Yields (.remove (Backup.path file)) a d') :
  Settled file text home a d'
  := by
  cases a with
  | error e =>
    rw [hremove.remove_error]
    exact ⟨h.safe, (by rintro ⟨⟩), fun _ => h⟩
  | ok =>
    have hkept := Backup.unchanged_of_touched_path (readText_ok_iff.mp htext) (hremove.touched rfl)
    have hintact : Intact file text d' := ⟨hkept.readText_iff.mpr htext, hremove.remove_ok⟩
    have hhome : d'.home = home := by rw [hkept.home, h.home]
    exact ⟨⟨hhome, .inl hintact⟩, fun _ => hintact, by rintro _ ⟨⟩⟩

end Held

/-! ### Making a backup -/

/-- A file holds its text, and its backup has been made. -/
structure Begun (file text : String) (home : Location) (d : Disk) : Prop where
  content : d.readText file = .ok text
  backup : ∃ content, d.readContent (Backup.path file) = .ok content
  home : d.home = home

/-- Only where a file has no backup one can be made. -/
theorem Safe.begun (h : Safe file text home d)
    (hcreate : d.Yields (.create (Backup.path file)) (.ok ()) d') :
  d.readText file = .ok text ∧ Begun file text home d'
  := by
  have hcreated := hcreate.create_ok
  have hintact := h.intact (isPresent_of_create hcreated)
  have hkept := Backup.unchanged_of_touched_path (readText_ok_iff.mp hintact.content)
    (hcreate.touched rfl)
  use hintact.content
  constructor
  · apply hkept.readText_iff.mpr hintact.content
  · use .text ""
    apply readContent_of_create hcreated
  · rw [hkept.home, h.home]

namespace Begun

theorem held (h : Begun file text home d)
    (hfill : d.Yields (.fill (Backup.path file) text) (.ok ()) d') :
  Held file text home d'
  := by
  obtain ⟨content, hbackup⟩ := h.backup
  have hread := readText_ok_iff.mp h.content
  have hkept := Backup.unchanged_of_touched_path hread (hfill.touched rfl)
  constructor
  · constructor
    · use .text text
      apply hkept.content.mpr hread
    · apply hfill.fill_ok hbackup
  · rw [hkept.home, h.home]

/-- What becomes of the backup before it is removed makes no difference. -/
theorem settled {d'' : Disk} (h : Begun file text home d)
    (htouched : Touched (Backup.path file) d d')
    (hremove : d'.Yields (.remove (Backup.path file)) (.ok ()) d'') :
  Settled file text home (.ok ()) d''
  := by
  have hread := readText_ok_iff.mp h.content
  have hkept := Backup.unchanged_of_touched_path hread htouched
  have hkept := hkept.trans
    (Backup.unchanged_of_touched_path (hkept.content.mpr hread) (hremove.touched rfl))
  have hintact : Intact file text d'' :=
    ⟨hkept.readText_iff.mpr h.content, hremove.remove_ok⟩
  have hhome : d''.home = home := by rw [hkept.home, h.home]
  exact ⟨⟨hhome, .inl hintact⟩, fun _ => hintact, by rintro _ ⟨⟩⟩

end Begun

/-! ### Settling a target -/

/-- Clearing the compiled code of a target that is as it was leaves it so. -/
theorem Backup.ensures_settled (hhome : d.home = home) (h : Intact file text d) :
  Ensures (World.hazardous targets) Eq (Watched file text home tested)
    (Settled file text home) (do clearCompiledCode file; return .ok ()) d
  := by
  have hcleared : Ensures (World.hazardous targets) Eq (Watched file text home tested)
      (fun _ d => Intact file text d ∧ d.home = home) (clearCompiledCode file) d := by
    apply ensures_clearCompiledCode
    · rintro s _ rfl hs
      exact hs
    · rintro cache s a s' ⟨hlist, -⟩ hs
      obtain rfl := hlist.list
      use .of_safe ⟨hs.2, .inl hs.1⟩ rfl
    · rintro path hclears s a s' ⟨hremove, -⟩ ⟨hintact, rfl⟩
      obtain ⟨name, hname⟩ := exists_endsIn (readText_ok_iff.mp hintact.content)
      have hkept := hclears.isCompiled.unchanged hname (hremove.touched rfl)
      have hintact' := hintact.of_unchanged hkept.1 hkept.2
      exact ⟨.of_safe ⟨hkept.1.home, .inl hintact'⟩ rfl, hintact', hkept.1.home⟩
    · exact ⟨h, hhome⟩
  apply Ensures.bind (fun _ => rfl)
  apply hcleared.mono
  rintro _ d' ⟨hintact, hhome⟩ _ rfl
  exact ⟨⟨hhome, .inl hintact⟩, fun _ => hintact, by rintro _ ⟨⟩⟩

/-- A restoration puts the text of a target back and takes the backup away, if it does not fail, and
leaves the backup there if it does. -/
theorem Backup.ensures_restore (h : Held file text home d) :
  Ensures (World.hazardous targets) Eq (Watched file text home tested)
    (Settled file text home) (Backup.restore file (Backup.path file)) d
  := by
  apply Ensures.request
  rintro _ rfl a d₁ ⟨hcopy, -⟩
  obtain ⟨hheld, htext⟩ := h.copy hcopy
  use .of_safe hheld.safe rfl
  cases a with
  | error e =>
    rintro _ rfl
    exact ⟨hheld.safe, (by rintro ⟨⟩), fun _ => hheld⟩
  | ok =>
    apply Ensures.request
    rintro _ rfl a d₂ ⟨hremove, -⟩
    have hsettled := hheld.remove (htext rfl) hremove
    use .of_safe hsettled.safe rfl
    cases a with
    | error e =>
      rintro _ rfl
      exact ⟨hsettled.safe, (by rintro ⟨⟩), fun _ => hsettled.held rfl⟩
    | ok => apply ensures_settled hsettled.safe.home (hsettled.intact rfl)

namespace Guard

variable {g : Guard}

theorem ensures_removeBackup (hfile : g.file = file) (hbackup : g.backup = Backup.path file)
    (h : Held file text home d) (htext : d.readText file = .ok text) :
  Ensures (World.hazardous targets) Eq (Watched file text home tested)
    (Settled file text home) g.removeBackup d
  := by
  rw [removeBackup, hfile, hbackup]
  apply Ensures.request
  rintro _ rfl a d₁ ⟨hremove, -⟩
  have hsettled := h.remove htext hremove
  use .of_safe hsettled.safe rfl
  split
  · apply Backup.ensures_settled hsettled.safe.home
    apply hsettled.safe.intact hremove.remove_notFound
  · apply Backup.ensures_settled hsettled.safe.home (hsettled.intact rfl)
  · rintro _ rfl
    exact ⟨hsettled.safe, (by rintro ⟨⟩), fun _ => hsettled.held rfl⟩

theorem ensures_writeBack (hfile : g.file = file) (hbackup : g.backup = Backup.path file)
    (hsaved : g.saved = text) (h : Held file text home d) :
  Ensures (World.hazardous targets) Eq (Watched file text home tested) (Settled file text home)
    g.writeBack d
  := by
  rw [writeBack, holdsSaved, hfile, hsaved]
  apply Ensures.bind (fun _ => rfl)
  apply Ensures.request
  rintro _ rfl a d₁ ⟨hread, -⟩
  obtain ⟨rfl, htext⟩ := hread.readText
  use .of_safe h.safe rfl
  have hwrite : ∀ {next : Except FileError Unit → Procedure (Except FileError Unit)},
      (∀ e, next (.error e) = pure (.error e)) → next (.ok ()) = g.removeBackup →
      Ensures (World.hazardous targets) Eq (Watched file text home tested)
        (Settled file text home) (Procedure.write file text >>= next) d₁ := by
    intro next herror hok
    apply Ensures.request
    rintro _ rfl a d₂ ⟨hwrite, -⟩
    obtain ⟨hheld, hwritten⟩ := h.write hwrite
    use .of_safe hheld.safe rfl
    cases a with
    | error e =>
      rw [herror]
      rintro _ rfl
      exact ⟨hheld.safe, (by rintro ⟨⟩), fun _ => hheld⟩
    | ok =>
      change Ensures _ _ _ _ (next (.ok ())) d₂
      rw [hok]
      apply ensures_removeBackup hfile hbackup hheld (hwritten rfl)
  cases a with
  | error e =>
    rintro _ rfl
    exact hwrite (fun _ => rfl) rfl
  | ok current =>
    rintro _ rfl
    split
    · next heq =>
      apply ensures_removeBackup hfile hbackup h
      rw [htext current rfl, beq_iff_eq.mp heq]
    · exact hwrite (fun _ => rfl) rfl

theorem ensures_restore (hfile : g.file = file) (hbackup : g.backup = Backup.path file)
    (hsaved : g.saved = text) (h : Held file text home d) :
  Ensures (World.hazardous targets) Eq (Watched file text home tested)
    (fun (result, g') d => Settled file text home result d
      ∧ ∀ e, result = .error e → g' = g) g.restore d
  := by
  apply Ensures.bind (fun _ => rfl)
  apply (ensures_writeBack hfile hbackup hsaved h).mono
  rintro (e | _) d₁ hsettled _ rfl
  · use hsettled
    simp
  · use hsettled
    simp

theorem ensures_drop (hfile : g.file = file) (hbackup : g.backup = Backup.path file)
    (hsaved : g.saved = text) (h : Held file text home d) :
  Ensures (World.hazardous targets) Eq (Watched file text home tested)
    (fun _ d => Safe file text home d) g.drop d
  := by
  rw [drop]
  split
  · rintro _ rfl
    apply h.safe
  · apply Ensures.bind (fun _ => rfl)
    apply (ensures_writeBack hfile hbackup hsaved h).mono
    rintro _ d₁ hsettled _ rfl
    apply hsettled.safe

/-! ### Taking hold of a target -/

/-- A guard is got of a target that has no backup, and it saves the text of the target. A backup
that could not be filled was removed, so that a target that was as it should be still is. -/
theorem ensures_acquire (h : Safe file text home d) (log : List Event) :
  Ensures ((World.hazardous targets).logged CleansUp) Eq
    (fun s event s' => Watched file text home tested s.2 event s'.2)
    (fun acquired s => match acquired with
      | .ok g => g.file = file ∧ g.backup = Backup.path file ∧ g.saved = text
        ∧ Held file text home s.2
      | .error _ => Safe file text home s.2 ∧ (Intact file text d → Intact file text s.2))
    (acquire file) (log, d)
  := by
  apply Ensures.request
  rintro _ rfl a ⟨_, d₁⟩ ⟨⟨hread, -⟩, rfl, -⟩
  dsimp only at hread
  obtain ⟨rfl, htext⟩ := hread.readText
  use .of_safe h rfl
  cases a with
  | error e =>
    rintro _ rfl
    exact ⟨h, id⟩
  | ok saved =>
    apply Ensures.request
    rintro _ rfl a ⟨_, d₂⟩ ⟨⟨hcreate, -⟩, rfl, -⟩
    dsimp only at hcreate
    cases a with
    | error e =>
      obtain rfl := hcreate.create_error
      use .of_safe h rfl
      rintro _ rfl
      exact ⟨h, id⟩
    | ok =>
      use .of_unfinished rfl rfl
      obtain ⟨hcontent, hbegun⟩ := h.begun hcreate
      obtain rfl : saved = text := Except.ok.inj ((htext saved rfl).symm.trans hcontent)
      apply Ensures.request
      rintro _ rfl a ⟨_, d₃⟩ ⟨⟨hfill, -⟩, rfl, -⟩
      dsimp only at hfill
      cases a with
      | error e =>
        use .of_unfinished rfl rfl
        apply Ensures.request
        rintro _ rfl a ⟨_, d₄⟩ ⟨⟨hremove, -⟩, rfl, hclean⟩
        cases a with
        | error e' =>
          simp [CleansUp, List.isChain_append, Event.isFailedFill, Event.isFailedRemoval] at hclean
        | ok =>
          have hsettled := hbegun.settled (hfill.touched rfl) hremove
          use .of_safe hsettled.safe rfl
          rintro _ rfl
          exact ⟨hsettled.safe, fun _ => hsettled.intact rfl⟩
      | ok =>
        have hheld := hbegun.held hfill
        use .of_safe hheld.safe rfl
        rintro _ rfl
        exact ⟨rfl, rfl, rfl, hheld⟩

end Guard

/-! ### Testing a mutant -/

/-- A file holds the mutant of a text. -/
def Mutation.Stands (parser : Parser) (m : Mutation) (text : String) (d : Disk) : Prop :=
  ∃ mutated, m.apply parser text = .ok mutated ∧ d.readText m.file = .ok mutated

variable {parser : Parser} {m : Mutation} {options : CycleOptions} {command : TestCommand}

/-- A test command that is run for the tests does no more than a test oracle may do. -/
theorem TestCommand.ensures_oracle {scope : String} {limit : Duration}
    (h : ∀ a d', World.hazardous targets (.consult scope limit) d a d' →
      Watched file text home tested d ⟨.consult scope limit, a⟩ d') :
  Ensures (World.hazardous targets) Eq (Watched file text home tested)
    (fun a d' => World.hazardous targets (.consult scope limit) d a d')
    (command.oracle scope limit) d
  := by
  rw [oracle, runProgram]
  apply Ensures.bind (fun _ => rfl)
  apply Ensures.request
  rintro _ rfl start d₁ hclock
  obtain rfl : d = d₁ := hclock.symm
  constructor
  · have hwatched := h (.ok (.passed "")) d fun _ _ => Spared.refl _ _
    constructor
    · exact fun _ => hwatched.safe rfl
    · rintro ⟨⟩
  apply Ensures.request
  rintro _ rfl a d' hlaunch
  have hwatched := h (.ok (.passed "")) d' hlaunch
  constructor
  · constructor
    · exact fun _ => hwatched.safe rfl
    · exact fun _ => hwatched.trial rfl
  · have hdone : ∀ result : Except String (Except FileError Completion),
        Ensures (World.hazardous targets) Eq (Watched file text home tested)
          (fun result d' => Ensures (World.hazardous targets) Eq (Watched file text home tested)
            (fun a d' => World.hazardous targets (.consult scope limit) d a d')
            (pure (result.map command.outcomeOf)) d') (pure result) d' := by
      rintro result _ rfl _ rfl
      apply hlaunch
    split
    · split <;> apply hdone
    · apply hdone

namespace Cycle

/-- A target stays held while its mutant is written and tested. -/
theorem mutateAndTest_watched {g : Guard} (htarget : m.file ∈ targets) (hfile : g.file = m.file)
    (hsaved : g.saved = text) (htested : ∀ d, m.Stands parser text d → tested d)
    (h : Held m.file text home d) :
  Ensures (World.hazardous targets) Eq (Watched m.file text home tested)
    (fun _ d => Held m.file text home d)
    ((mutateAndTest parser m g options).withOracle command.oracle) d
  := by
  apply Ensures.withOracle
  · intro scope limit d hconsult
    apply TestCommand.ensures_oracle hconsult
  rw [mutateAndTest, hfile, hsaved]
  split
  · rintro _ rfl
    apply h
  · next mutated happly =>
    apply Ensures.request
    rintro _ rfl a d₁ ⟨hwrite, -⟩
    obtain ⟨hheld, hwritten⟩ := h.write hwrite
    use .of_safe hheld.safe rfl
    cases a with
    | error e =>
      rintro _ rfl
      apply hheld
    | ok =>
      simp only
      split
      · rintro _ rfl
        apply hheld
      · apply Ensures.request
        rintro _ rfl a d₂ hconsult
        have hheld' := hheld.of_unchanged (hconsult m.file htarget)
        constructor
        · constructor
          · exact fun _ => hheld'.safe
          · intro _
            apply htested
            use mutated, happly, hwritten rfl
        · cases a <;>
          · rintro _ rfl
            apply hheld'

/-- A cycle on a target keeps it, and runs the tests only while it holds the mutant. If it comes to
a result, a target that was as it should be still is. -/
theorem run_watched (htarget : m.file ∈ targets)
    (htested : ∀ d, m.Stands parser text d → tested d) (h : Safe m.file text home d)
    (log : List Event) :
  Ensures ((World.hazardous targets).logged CleansUp) Eq
    (fun s event s' => Watched m.file text home tested s.2 event s'.2)
    (fun run s => Safe m.file text home s.2 ∧ ((∃ result, run.ending = .finished result) →
      Intact m.file text d → Intact m.file text s.2))
    ((Cycle.run parser m options).withOracle command.oracle) (log, d)
  := by
  have hacquire : (Guard.acquire m.file).withOracle command.oracle = Guard.acquire m.file :=
    withOracle_of_asks (Guard.asks_acquire rfl rfl (fun _ => rfl) rfl)
  have hsettle : ∀ {α : Type} {g : Guard} {p : Procedure α}, p.Asks g.Settles →
      p.withOracle command.oracle = p := by
    intro α g p h
    apply withOracle_of_asks
    apply h.mono
    intro request hsettles
    cases hsettles <;> rfl
  have hreport : ∀ {finding start d' log} {f : TestResult → CycleRun},
      Safe m.file text home d' ∧ (Intact m.file text d → Intact m.file text d') →
      Ensures ((World.hazardous targets).logged CleansUp) Eq
        (fun s event s' => Watched m.file text home tested s.2 event s'.2)
        (fun run s => Safe m.file text home s.2 ∧ ((∃ result, run.ending = .finished result) →
          Intact m.file text d → Intact m.file text s.2))
        ((do
          let result ← report m finding start options
          return f result : Procedure CycleRun).withOracle command.oracle) (log, d') := by
    rintro finding start d' log f ⟨hsafe, hintact⟩
    rw [withOracle_of_asks]
    · apply Ensures.request
      rintro _ rfl stop ⟨_, d₁⟩ ⟨hclock, rfl, -⟩
      obtain rfl : d₁ = d' := hclock
      use .of_safe hsafe rfl
      rintro _ rfl
      exact ⟨hsafe, fun _ => hintact⟩
    · exact (asks_report (·.isConsultation = false) rfl).bind fun _ => trivial
  rw [Cycle.run, withOracle_bind]
  apply Ensures.request
  rintro _ rfl start ⟨_, d₁⟩ ⟨hclock, rfl, -⟩
  obtain rfl : d₁ = d := hclock
  use .of_safe h rfl
  rw [withOracle_bind, hacquire]
  apply Ensures.bind (fun _ => rfl)
  apply (Guard.ensures_acquire h _).mono
  rintro (e | g) ⟨log₁, d₂⟩ hacquired
  · apply hreport hacquired
  · obtain ⟨hfile, hbackup, hsaved, hheld⟩ := hacquired
    dsimp only
    rw [withOracle_bind]
    apply Ensures.bind (fun _ => rfl)
    apply (mutateAndTest_watched htarget hfile hsaved htested hheld).logged.mono
    rintro ⟨message | finding, states⟩ ⟨log₂, d₃⟩ hheld
    · dsimp only
      rw [withOracle_bind, hsettle Guard.asks_drop]
      apply Ensures.bind (fun _ => rfl)
      apply (Guard.ensures_drop hfile hbackup hsaved hheld).logged.mono
      rintro _ s hsafe _ rfl
      exact ⟨hsafe, by rintro ⟨_, ⟨⟩⟩⟩
    · dsimp only
      rw [withOracle_bind, hsettle Guard.asks_restore]
      apply Ensures.bind (fun _ => rfl)
      apply (Guard.ensures_restore hfile hbackup hsaved hheld).logged.mono
      rintro ⟨e | _, g'⟩ ⟨log₃, d₄⟩ ⟨hsettled, hkept⟩
      · obtain rfl := hkept e rfl
        dsimp only
        rw [withOracle_bind, hsettle Guard.asks_drop]
        apply Ensures.bind (fun _ => rfl)
        apply (Guard.ensures_drop hfile hbackup hsaved (hsettled.held rfl)).logged.mono
        rintro _ s hsafe _ rfl
        exact ⟨hsafe, by rintro ⟨_, ⟨⟩⟩⟩
      · apply hreport ⟨hsettled.safe, fun _ => hsettled.intact rfl⟩

end Cycle

end MutationTesting
