import MutationTesting.Cycle
import MutationTesting.Proofs.Backup
import MutationTesting.Proofs.Procedure.Asks

/-!
# What a cycle asks for

A guard `Settles` its file by what it asks for, and a cycle `Involves` what its guard asks for,
the making of the backup, the writing of the mutant and the question to the test oracle. A cycle
never asks whether there is an interruption, runs no programs and prints nothing.
-/

namespace MutationTesting

open Procedure

/-- Whether a request neither makes nor fills a file and runs no tests. -/
def Request.isSettling : Request → Bool
  | .file (.readText _) | .file (.write _ _) | .file (.remove _) | .file (.list _) | .clock => true
  | _ => false

/-- What a guard asks for that lets go of its file, and the clock for the report after that. -/
inductive Guard.Settles (g : Guard) : Request → Prop where
  | clock : g.Settles .clock
  | read : g.Settles (.file (.readText g.file))
  | write : g.Settles (.file (.write g.file g.saved))
  | remove : g.Settles (.file (.remove g.backup))
  | list {cache : String} : g.Settles (.file (.list cache))
  | removeCompiled {path : String} : Backup.Clears g.file path → g.Settles (.file (.remove path))

/-- What a cycle asks for. -/
inductive Cycle.Involves (m : Mutation) (options : CycleOptions) : Request → Prop where
  | create : Involves m options (.file (.create (Backup.path m.file)))
  | fill {text : String} : Involves m options (.file (.fill (Backup.path m.file) text))
  | write {text : String} : Involves m options (.file (.write m.file text))
  | consult : Involves m options (.consult options.scope options.timeout)
  | settle {g : Guard} {request : Request} : g.file = m.file → g.backup = Backup.path m.file →
      g.Settles request → Involves m options request

theorem Guard.Settles.isSettling {g : Guard} {request : Request} (h : g.Settles request) :
  request.isSettling = true
  := by
  cases h <;> rfl

namespace Backup

variable {file : String}

/-- Clearing compiled code lists a directory and removes what can be compiled code. -/
theorem asks_clearCompiledCode {Q : Request → Prop} (hlist : ∀ cache, Q (.file (.list cache)))
    (hremove : ∀ path, Clears file path → Q (.file (.remove path))) :
  (clearCompiledCode file).Asks Q
  := by
  have hall : ∀ paths : List String, (∀ path ∈ paths, Q (.file (.remove path))) →
      (removeAll paths).Asks Q := by
    intro paths hpaths
    induction paths with
    | nil => trivial
    | cons path paths ih =>
      refine Asks.request (hpaths path List.mem_cons_self) fun _ => ih ?_
      intro other hother
      apply hpaths other (List.mem_cons_of_mem _ hother)
  rw [clearCompiledCode]
  split
  · next parent stem hextension hparent hstem =>
    refine Asks.request (hlist _) fun names => ?_
    cases names with
    | error e => trivial
    | ok names =>
      apply hall
      intro path hpath
      obtain ⟨name, hname, rfl⟩ := List.mem_map.mp hpath
      apply hremove
      use hextension, parent, stem, name, hparent, hstem, (List.mem_filter.mp hname).2
  · trivial

/-- A backup is put back by copying it and removing it, and then compiled code is cleared. -/
theorem asks_restore {Q : Request → Prop} {backup : String} (hcopy : Q (.file (.copy backup file)))
    (hbackup : Q (.file (.remove backup))) (hlist : ∀ cache, Q (.file (.list cache)))
    (hremove : ∀ path, Clears file path → Q (.file (.remove path))) :
  (restore file backup).Asks Q
  := by
  refine Asks.request hcopy fun a => ?_
  cases a with
  | error e => trivial
  | ok =>
    refine Asks.request hbackup fun a => ?_
    cases a with
    | error e => trivial
    | ok => exact (asks_clearCompiledCode hlist hremove).bind fun _ => Asks.pure _

end Backup

namespace Guard

variable {g : Guard} {file : String}

theorem asks_removeBackup {Q : Request → Prop} (hbackup : Q (.file (.remove g.backup)))
    (hlist : ∀ cache, Q (.file (.list cache)))
    (hremove : ∀ path, Backup.Clears g.file path → Q (.file (.remove path))) :
  g.removeBackup.Asks Q
  := by
  have hclear : (do
      Backup.clearCompiledCode g.file
      return (.ok () : Except FileError Unit)).Asks Q :=
    (Backup.asks_clearCompiledCode hlist hremove).bind fun _ => trivial
  refine Asks.request hbackup fun a => ?_
  split
  · apply hclear
  · apply hclear
  · trivial

theorem removeBackup_settles :
  g.removeBackup.Asks g.Settles
  := asks_removeBackup .remove (fun _ => .list) fun _ => .removeCompiled

theorem asks_holdsSaved :
  g.holdsSaved.Asks g.Settles
  := by
  refine Asks.request Settles.read fun a => ?_
  cases a <;> trivial

theorem asks_writeBack :
  g.writeBack.Asks g.Settles
  := by
  apply asks_holdsSaved.bind
  intro held
  split
  · apply removeBackup_settles
  · refine Asks.request Settles.write fun a => ?_
    cases a with
    | error e => trivial
    | ok => apply removeBackup_settles

theorem asks_restore :
  g.restore.Asks g.Settles
  := by
  apply asks_writeBack.bind
  intro result
  cases result <;> trivial

/-- The guard keeps its file and its backup in mind. -/
theorem gives_restore :
  g.restore.Gives fun (_, g') => g'.file = g.file ∧ g'.backup = g.backup ∧ g'.saved = g.saved
  := by
  apply Gives.bind (R := fun _ => True) (Gives.of_forall fun _ => trivial)
  rintro (e | _) - <;> exact ⟨rfl, rfl, rfl⟩

theorem asks_drop :
  g.drop.Asks g.Settles
  := by
  rw [drop]
  split
  · trivial
  · exact asks_writeBack.bind fun _ => trivial

theorem asks_acquire {Q : Request → Prop} (hread : Q (.file (.readText file)))
    (hcreate : Q (.file (.create (Backup.path file))))
    (hfill : ∀ text, Q (.file (.fill (Backup.path file) text)))
    (hremove : Q (.file (.remove (Backup.path file)))) :
  (acquire file).Asks Q
  := by
  refine Asks.request hread fun a => ?_
  cases a with
  | error e => trivial
  | ok saved =>
    refine Asks.request hcreate fun a => ?_
    cases a with
    | error e => trivial
    | ok =>
      refine Asks.request (hfill saved) fun a => ?_
      cases a with
      | error e => exact Asks.request hremove fun _ => trivial
      | ok => trivial

/-- A guard is got for the file and its backup. -/
theorem gives_acquire :
  (acquire file).Gives fun acquired => ∀ g, acquired = .ok g →
    g.file = file ∧ g.backup = Backup.path file
  := by
  intro a
  cases a with
  | error e => exact fun _ h => nomatch h
  | ok saved =>
    intro a
    cases a with
    | error e => exact fun _ h => nomatch h
    | ok =>
      intro a
      cases a with
      | error e => exact fun _ _ h => nomatch h
      | ok =>
        rintro _ ⟨⟩
        use rfl

end Guard

namespace Cycle

variable {parser : Parser} {m : Mutation} {options : CycleOptions} {g : Guard}

theorem asks_mutateAndTest (hfile : g.file = m.file) :
  (mutateAndTest parser m g options).Asks (Involves m options)
  := by
  rw [mutateAndTest, hfile]
  split
  · trivial
  · refine Asks.request Involves.write fun a => ?_
    cases a with
    | error e => trivial
    | ok =>
      simp only
      split
      · trivial
      · refine Asks.request Involves.consult fun a => ?_
        cases a <;> trivial

theorem asks_report {finding : Finding} {start : Duration} (Q : Request → Prop) (h : Q .clock) :
  (report m finding start options).Asks Q
  := Asks.request h fun _ => trivial

/-- A cycle asks for what it involves and nothing else. -/
theorem asks_run :
  (Cycle.run parser m options).Asks (Involves m options)
  := by
  let empty : Guard := ⟨m.file, Backup.path m.file, "", false⟩
  have hclock : Involves m options .clock := .settle (g := empty) rfl rfl .clock
  have hreport : ∀ {finding start} {f : TestResult → CycleRun}, (do
      let result ← report m finding start options
      return f result).Asks (Involves m options) := by
    intro finding start f
    exact (asks_report _ hclock).bind fun _ => trivial
  refine Asks.request hclock fun start => ?_
  apply Asks.bind_of_gives _ Guard.gives_acquire
  · intro acquired hacquired
    cases acquired with
    | error e => apply hreport
    | ok g =>
      obtain ⟨hfile, hbackup⟩ := hacquired g rfl
      have hsettle : ∀ {g' : Guard}, g'.file = g.file → g'.backup = g.backup →
          ∀ request, g'.Settles request → Involves m options request := by
        intro g' hfile' hbackup' request h
        apply Involves.settle (hfile'.trans hfile) (hbackup'.trans hbackup) h
      apply (asks_mutateAndTest hfile).bind
      rintro ⟨found, states⟩
      cases found with
      | error message => exact (Guard.asks_drop.mono (hsettle rfl rfl)).bind fun _ => trivial
      | ok finding =>
        apply (Guard.asks_restore.mono (hsettle rfl rfl)).bind_of_gives Guard.gives_restore
        rintro ⟨restored, g'⟩ ⟨hfile', hbackup', -⟩
        cases restored with
        | error e =>
          exact (Guard.asks_drop.mono (hsettle hfile' hbackup')).bind fun _ => trivial
        | ok => apply hreport
  · apply Guard.asks_acquire
    · apply Involves.settle (g := empty) rfl rfl .read
    · apply Involves.create
    · exact fun _ => .fill
    · apply Involves.settle (g := empty) rfl rfl .remove

/-- The result of a cycle is one of its mutation. -/
theorem gives_run :
  (Cycle.run parser m options).Gives fun run =>
    ∀ result, run.ending = .finished result → result.mutationId = m.id ∧ result.line = m.line
  := by
  have hreport : ∀ {finding : Finding} {start : Duration} {states : List CycleState},
      Gives (fun run : CycleRun => ∀ result, run.ending = .finished result →
        result.mutationId = m.id ∧ result.line = m.line) (do
          let result ← report m finding start options
          return ⟨.finished result, states⟩) := by
    rintro finding start states stop _ ⟨⟩
    exact ⟨rfl, rfl⟩
  have hsome : ∀ {α : Type} {p : Procedure α}, p.Gives fun _ => True :=
    Gives.of_forall fun _ => trivial
  apply Gives.bind hsome
  rintro start -
  apply Gives.bind hsome
  rintro (e | g) -
  · apply hreport
  · apply Gives.bind hsome
    rintro ⟨_ | finding, states⟩ -
    · apply Gives.bind hsome
      rintro _ - _ ⟨⟩
    · apply Gives.bind hsome
      rintro ⟨_ | _, g'⟩ -
      · apply Gives.bind hsome
        rintro _ - _ ⟨⟩
      · apply hreport

end Cycle

end MutationTesting
