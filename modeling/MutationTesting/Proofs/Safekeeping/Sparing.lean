import MutationTesting.Proofs.Safekeeping.Session

/-!
# Tests leave the other targets as they are

What is done for the test of one mutation leaves each target but the file of the mutation
`Disk.Spared`, and the backup of that target too, wherever the test is killed.
-/

namespace MutationTesting

open Disk Procedure

variable {targets : Set String} {home : Location} {file : String} {d d' d'' : Disk}
  {request : Request} {parser : Parser} {m : Mutation}

/-- Each request of a procedure leaves a file as it was on some disk, and so does the end. -/
abbrev Procedure.Sparing {α : Type} (targets : Set String) (file : String) (d : Disk)
    (p : Procedure α) (d' : Disk) : Prop :=
  Ensures (World.hazardous targets) Eq (fun _ _ s => Spared file d s) (fun _ s => Spared file d s)
    p d'

/-- What only looks at things leaves the disk as it is. -/
theorem Procedure.Asks.ensures_eq {α : Type} {p : Procedure α} {step : Disk → Event → Disk → Prop}
    (h : p.Asks fun request => request.isReading = true) (hstep : ∀ event, step d event d) :
  Ensures (World.hazardous targets) Eq step (fun _ s => s = d) p d
  := by
  apply h.ensures (I := (· = d)) _ rfl
  rintro request s a s' hreading hanswer rfl
  obtain rfl := World.eq_of_isReading hreading hanswer
  use hstep _

/-- What spares a file at every step spares it altogether. -/
theorem Procedure.Asks.sparing {α : Type} {p : Procedure α}
    (h : p.Asks (Request.Spares targets d.home file))
    (hread : ∃ content, d.readContent file = .ok content) (hspared : Spared file d d') :
  p.Sparing targets file d d'
  := by
  apply h.ensures _ hspared
  intro request s a s' hspares hanswer hs
  have hs' : Spared file d s' := by
    apply hs.trans (hspares hanswer hs.1.home _)
    obtain ⟨content, hcontent⟩ := hread
    use content
    apply hs.1.content.mpr hcontent
  exact ⟨hs', hs'⟩

theorem Settings.asks_load {directory : String} :
  (load directory).Asks fun request => request.isReading = true
  := by
  rw [load]
  refine Asks.request rfl fun a => ?_
  cases a with
  | false => trivial
  | true =>
    refine Asks.request rfl fun a => ?_
    cases a with
    | error e => trivial
    | ok text =>
      dsimp only
      split <;> trivial

namespace CommandLine

open Command

variable {catalog id : String} {output workdir : Option String} {settings : Settings}

theorem spares_of_regards {other : String} {trials : Prop} (hother : other ∈ targets)
    (hne : other ≠ file) (h : request.Regards targets home file trials) :
  request.Spares targets home other
  := h.spares other hother hne

theorem spares_print {message : Message} :
  (Request.print message).Spares targets home file
  := Request.spares_of_isReading rfl

theorem asks_say_return {α : Type} {message : Message} {value : α} :
  (do
    say message
    return value : Command α).run.Asks (Request.Spares targets home file)
  := asks_bind (Command.asks_say spares_print) fun _ => Asks.pure _

/-- The restoration of a file that an interrupted run left mutated spares the other targets. -/
theorem asks_recoverInterrupted {other : String} (hwork : Workable targets home file)
    (hother : other ∈ targets) (hne : other ≠ file) :
  (recoverInterrupted file).run.Asks (Request.Spares targets home other)
  := by
  rw [recoverInterrupted, run_lift_bind, Backup.interrupted?, Procedure.bind_assoc]
  refine Asks.request (Request.spares_of_isReading rfl) fun a => ?_
  cases a with
  | false => trivial
  | true =>
    apply asks_bind
    · apply asks_attempt ((Backup.regards_restore hwork).mono fun _ => spares_of_regards hother hne)
    · exact fun _ => asks_bind (Command.asks_say spares_print) fun _ => Asks.pure _

/-- A cycle spares the other targets. -/
theorem asks_cycleWith {other : String} {command : TestCommand} {options : CycleOptions}
    (hwork : Workable targets home m.file) (hother : other ∈ targets) (hne : other ≠ m.file) :
  (cycleWith parser command m options).Asks (Request.Spares targets home other)
  := by
  have hasks : (cycleWith parser command m options).Asks
      (Request.Regards targets home m.file True) :=
    Asks.withOracle (Cycle.asks_run.mono fun _ hinvolves => hinvolves.regards hwork)
      fun _ _ => TestCommand.asks_oracle
  apply hasks.mono fun _ => spares_of_regards hother hne

/-- The test of a mutation of the catalog spares all targets but the file of the mutation. -/
theorem sparing_testCommand
    (hwork : ∀ mutations m, Store.catalog? d catalog = some mutations →
      Store.findMutation mutations id = .ok m → Workable targets d.home m.file ∧ file ≠ m.file)
    (houtput : ∀ path ∈ output, Writable targets d.home path) (hfile : file ∈ targets)
    (hread : ∃ content, d.readContent file = .ok content) :
  (testCommand parser settings catalog id output workdir).run.Sparing targets file d d
  := by
  rw [testCommand]
  apply ensures_bind
  have hload : Ensures (World.hazardous targets) Eq (fun _ _ s => Spared file d s)
      (fun result s => s = d ∧ ∀ m, result = .ok m → ∃ mutations,
        Store.catalog? d catalog = some mutations ∧ Store.findMutation mutations id = .ok m)
      (loadMutation catalog id).run d := by
    apply ensures_loadMutation fun s => s
    rintro a s' ⟨hyields, -⟩
    obtain ⟨rfl, -⟩ := hyields.readText
    exact ⟨hyields, Spared.refl file _, rfl⟩
  apply hload.mono
  rintro (e | m) _ ⟨rfl, hloaded⟩
  · apply Spared.refl
  · obtain ⟨mutations, hmutations, hfind⟩ := hloaded m rfl
    obtain ⟨hwork, hne⟩ := hwork mutations m hmutations hfind
    apply Asks.sparing _ hread (Spared.refl file _)
    apply asks_bind (asks_recoverInterrupted hwork hfile hne)
    intro recovered
    cases recovered with
    | true => trivial
    | false =>
      apply asks_bind
      · cases chooseTestCommand settings [m] workdir <;> trivial
      · intro command
        apply asks_bind
        · apply asks_lift (asks_cycleWith hwork hfile hne)
        · intro run
          cases run.ending with
          | unrestored failure => trivial
          | brokenDown message => trivial
          | finished result =>
            cases output with
            | none => exact asks_bind (Command.asks_say spares_print) fun _ => asks_say_return
            | some path =>
              apply asks_bind
              · apply asks_attempt
                apply (Store.harmless_save (houtput path rfl)).mono
                exact fun _ hharmless => hharmless.spares file hfile
              · exact fun _ => asks_say_return

/-- A command that tests one mutation of a catalog spares all targets but the file of the mutation,
wherever it is killed. -/
theorem spared_of_reaches {i : Invocation} {oracle : OracleArgs} {events : List Event}
    {rest : Procedure Ending} (hcommand : i.command = .test catalog id output oracle)
    (hwork : ∀ mutations m, Store.catalog? d catalog = some mutations →
      Store.findMutation mutations id = .ok m → Workable targets d.home m.file ∧ file ≠ m.file)
    (houtput : ∀ path ∈ output, Writable targets d.home path) (hfile : file ∈ targets)
    (hread : ∃ content, d.readContent file = .ok content)
    (h : Reaches (World.hazardous targets) (CommandLine.run parser i) d events rest d') :
  Spared file d d'
  := by
  have hstart : (start parser i).run.Sparing targets file d d := by
    rw [start]
    apply ensures_bind
    apply ensures_attempt
    apply (Settings.asks_load.ensures_eq fun _ => Spared.refl file d).mono
    rintro (e | settings) _ rfl
    · apply Spared.refl
    · rw [hcommand]
      apply sparing_testCommand hwork houtput hfile hread
  have hrun : (CommandLine.run parser i).Sparing targets file d d := by
    rw [CommandLine.run]
    apply Ensures.bind (fun _ => rfl)
    apply hstart.mono
    intro result s hspared
    apply Asks.sparing _ hread hspared
    have hprint : ∀ {message} {ending : Ending}, (do
        Procedure.print message
        return ending : Procedure Ending).Asks (Request.Spares targets d.home file) :=
      Asks.request spares_print fun _ => Asks.pure _
    cases result with
    | ok code => trivial
    | error failure =>
      cases failure with
      | badInput messages => apply hprint
      | unrestored messages => apply hprint
      | brokenDown message => trivial
  obtain ⟨-, rfl⟩ | ⟨-, -, -, -, hspared⟩ := hrun.last_step (fun _ => rfl) h
  · apply Spared.refl
  · apply hspared

end CommandLine

end MutationTesting
