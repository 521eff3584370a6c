import MutationTesting.Proofs.Batch.Independence
import MutationTesting.Proofs.CommandLine.Handover
import MutationTesting.Proofs.Safekeeping.Sparing

/-!
# Batches whose cycles run in processes

On a disk of `World.isolating` a process runs a command on the disk where its batch works, and
`Completes` it in any way: it ends by itself, or it is killed anywhere but in the midst of making a
backup. The `Batch.Processes` of a batch come one after the other, with a restoration after each
that was stopped and has left a backup. Whether a target is as it was in the end depends on the
last process that concerns it.
-/

namespace MutationTesting

open Disk Procedure

variable {targets : Set String} {text : String → String} {home : Location} {parser : Parser}
  {d d₁ d' : Disk} {file : String} {events : List Event}

/-- How a process may end that runs a command, and what it leaves of a disk. Either it ends by
itself and succeeds with the exit code zero, or it is killed and does not succeed. Making a backup
counts as one step, so that no process is killed in its midst. -/
inductive CommandLine.Invocation.Completes (i : Invocation) (parser : Parser)
    (targets : Set String) (d : Disk) : Completion → Disk → Prop where
  | ended {events : List Event} {code : Nat} {output : String} {d' : Disk} :
      Runs (World.hazardous targets) (CommandLine.run parser i) d events (.exited code) d' →
      CleansUp events → Completes i parser targets d (.exited (code == 0) output) d'
  | killed {events : List Event} {rest : Procedure Ending} {completion : Completion} {d' : Disk} :
      Reaches (World.hazardous targets) (CommandLine.run parser i) d events rest d' →
      CleansUp events → (∀ event ∈ events.getLast?, event.isUnfinished = false) →
      (∀ output, completion ≠ .exited true output) → Completes i parser targets d completion d'

/-- What becomes of a process that is started with some arguments. If it can read them, it runs the
command, and if it cannot, or if it cannot be started, it leaves the disk as it is. -/
def CommandLine.Completes (parser : Parser) (targets : Set String) (args : List String) (d : Disk) :
    Except FileError Completion → Disk → Prop
  | .error _, d' => d' = d
  | .ok completion, d' => match CommandLine.parse args with
    | .error _ => d' = d
    | .ok i => i.Completes parser targets d completion d'

/-- A hazardous disk where every process is one of this program. -/
def World.isolating (parser : Parser) (targets : Set String) : World Disk
  | .launch l, d, a, d' => CommandLine.Completes parser targets l.args d a d'
  | request, d, a, d' => World.hazardous targets request d a d'

/-- The first mutation with an id in a catalog. -/
def Store.named? (d : Disk) (catalog id : String) : Option Mutation :=
  (catalog? d catalog).bind fun mutations => (findMutation mutations id).toOption

namespace Batch

/-- A process for a mutation: how it ended, the disk that it has left, and what came of the
restoration of the file of the mutation, if there was one. -/
structure Process where
  mutation : Mutation
  answer : Except FileError Completion
  left : Disk
  restoration : Option (Except FileError Unit)

/-- Whether a process was stopped by its batch, as it took too long or there was an interruption. -/
def isStopped : Except FileError Completion → Bool
  | .ok (.timedOut _) | .ok (.interrupted _) => true
  | .ok (.exited _ _) | .error _ => false

/-- A process is about a file: its mutation is one of the file, or the one with the same id in the
catalog is. -/
def Process.concerns (d : Disk) (catalog file : String) (p : Process) : Bool :=
  p.mutation.file = file || (Store.named? d catalog p.mutation.id).any (·.file = file)

/-- A process has left no backup of a file, or the file was restored after it. -/
def Process.Clears (file : String) (p : Process) : Prop :=
  p.left.isPresent (Backup.path file) = false
    ∨ (p.mutation.file = file ∧ p.restoration = some (.ok ()))

/-- Processes that a batch runs one after the other. If one was stopped and the file of its mutation
has a backup, the file is restored. -/
inductive Processes (w : World Disk) (options : BatchOptions) (program : Program) (catalog : String)
    (testCommand workdir : Option String) : Disk → List Process → Disk → Prop where
  | nil {d : Disk} : Processes w options program catalog testCommand workdir d [] d
  | cons {m : Mutation} {a : Except FileError Completion} {processes : List Process}
      {d d₁ d' : Disk} :
      w (.launch (processLaunch m options program catalog testCommand workdir)) d a d₁ →
      (isStopped a = true → d₁.isPresent (Backup.path m.file) = false) →
      Processes w options program catalog testCommand workdir d₁ processes d' →
      Processes w options program catalog testCommand workdir d (⟨m, a, d₁, none⟩ :: processes) d'
  | restore {m : Mutation} {a : Except FileError Completion} {processes : List Process}
      {events : List Event} {result : Except FileError Unit} {d d₁ d₂ d' : Disk} :
      w (.launch (processLaunch m options program catalog testCommand workdir)) d a d₁ →
      isStopped a = true → d₁.isPresent (Backup.path m.file) = true →
      Runs w (Backup.restore m.file (Backup.path m.file)) d₁ events result d₂ →
      Processes w options program catalog testCommand workdir d₂ processes d' →
      Processes w options program catalog testCommand workdir d
        (⟨m, a, d₁, some result⟩ :: processes) d'

end Batch

/-! ### The processes of a batch -/

/-- What runs no tests does on an isolating disk what it does on a hazardous one. -/
theorem World.hazardous_of_isolating {request : Request} {a : request.Answer}
    (htrial : request.isTrial = false) (h : World.isolating parser targets request d a d') :
  World.hazardous targets request d a d'
  := by
  cases request with
  | launch => cases htrial
  | file | consult | isInterrupted | clock | print => exact h

namespace Batch

variable {options : BatchOptions} {catalog : String} {testCommand workdir : Option String}
  {m : Mutation} {turns : List (Mutation × CycleEnd)} {program : Program}

/-- A file is restored after its process was stopped, if it has a backup then. -/
theorem runs_processDetail_isolating {a : Except FileError Completion} {detail : String}
    (h : Runs (World.isolating parser targets) (processDetail m program a) d events detail d') :
  (d' = d ∧ (isStopped a = true → d.isPresent (Backup.path m.file) = false))
    ∨ (isStopped a = true ∧ d.isPresent (Backup.path m.file) = true
      ∧ ∃ events result, Runs (World.isolating parser targets)
        (Backup.restore m.file (Backup.path m.file)) d events result d')
  := by
  have hrecover : ∀ {events}, Runs (World.isolating parser targets) (recover m) d events () d' →
      (d' = d ∧ d.isPresent (Backup.path m.file) = false)
        ∨ (d.isPresent (Backup.path m.file) = true
          ∧ ∃ events result, Runs (World.isolating parser targets)
            (Backup.restore m.file (Backup.path m.file)) d events result d') := by
    intro events h
    rw [recover, Backup.interrupted?, Procedure.bind_assoc] at h
    obtain ⟨a, d₁, rest, hpresent, hrest, -⟩ := runs_request_iff.mp h
    obtain ⟨rfl, rfl⟩ := World.isPresent_of_hazardous (World.hazardous_of_isolating rfl hpresent)
    cases hpath : d₁.isPresent (Backup.path m.file) with
    | false =>
      rw [hpath] at hrest
      obtain ⟨-, -, rfl⟩ := runs_pure_iff.mp hrest
      left
      use rfl
    | true =>
      rw [hpath] at hrest
      change Runs _ (do
        let _ ← Backup.restore m.file (Backup.path m.file)
        pure ()) _ _ _ _ at hrest
      obtain ⟨before, result, d₂, _, hrestore, hdone, -⟩ := runs_bind_iff.mp hrest
      obtain ⟨-, -, rfl⟩ := runs_pure_iff.mp hdone
      right
      use rfl, before, result
  rcases a with e | ⟨success, output⟩ | output | output
  · obtain ⟨-, -, rfl⟩ := runs_pure_iff.mp h
    left
    use rfl
    rintro ⟨⟩
  · obtain ⟨-, -, rfl⟩ := runs_pure_iff.mp h
    left
    use rfl
    rintro ⟨⟩
  all_goals
    obtain ⟨_, _, d₁, _, hrun, hdone, -⟩ := runs_bind_iff.mp h
    obtain ⟨-, -, rfl⟩ := runs_pure_iff.mp hdone
    apply (hrecover hrun).imp
    · rintro ⟨hd, habsent⟩
      use hd
      exact fun _ => habsent
    · exact fun hrestore => ⟨rfl, hrestore⟩

/-- Collecting a result leaves the disk as it is. -/
theorem asks_collectResult {detail : String} :
  (collectResult m options detail).Asks fun request => request.isReading = true
  := by
  rw [collectResult, Store.loadResult, Store.load, Procedure.bind_assoc]
  refine Asks.request rfl fun a => ?_
  cases a with
  | error e => trivial
  | ok text =>
    dsimp only
    cases Record.parse? Record.result? text <;> trivial

theorem Idle.isReading {request : Request} (h : Idle request) :
  request.isReading = true
  := by
  cases h <;> rfl

/-- The turns of a batch that come to results are those of its processes. -/
theorem exists_processes {parser' : Parser}
    (hisolation : options.isolation = .subprocess program catalog testCommand workdir)
    (hfinished : ∀ turn ∈ turns, ∃ result, turn.2 = .finished result)
    (h : Turns (World.isolating parser targets) parser' options turns d events d') :
  ∃ processes, Processes (World.isolating parser targets) options program catalog testCommand
      workdir d processes d'
    ∧ processes.map (·.mutation) = turns.map (·.1)
  := by
  induction h with
  | nil => exact ⟨[], .nil, rfl⟩
  | idle hidle hanswer _ ih =>
    obtain rfl := World.eq_of_isReading hidle.isReading
      (World.hazardous_of_isolating (Request.isTrial_of_isReading hidle.isReading) hanswer)
    apply ih hfinished
  | @turn m ending turns _ _ s s₁ s₂ hturn _ ih =>
    obtain ⟨⟨result, rfl⟩, hrest⟩ := List.forall_mem_cons.mp hfinished
    obtain ⟨processes, hprocesses, hmutations⟩ := ih hrest
    rw [runOne_of_subprocess hisolation] at hturn
    obtain ⟨-, _, ⟨⟩⟩ | ⟨_, _, a, s₃, rfl, hlaunch, hafter⟩ := runs_runProcess hturn
    obtain ⟨-, _, ⟨⟩⟩ | ⟨_, detail, s₄, _, result, hdetail, hresult, -⟩ := hafter
    have hcollect : Ensures (World.hazardous targets) Eq (fun _ _ _ => True) (fun _ s => s = s₄)
        (collectResult m options detail) s₄ := asks_collectResult.ensures_eq fun _ => trivial
    obtain rfl := hcollect.post_of_runs (fun _ => rfl) (asks_collectResult.reaches
      (fun _ _ _ _ hreading => World.hazardous_of_isolating
        (Request.isTrial_of_isReading hreading)) hresult)
    obtain ⟨rfl, habsent⟩ | ⟨hstopped, hpresent, _, result, hrestore⟩ :=
      runs_processDetail_isolating hdetail
    · use ⟨m, a, s₁, none⟩ :: processes, .cons hlaunch habsent hprocesses
      simpa using hmutations
    · use ⟨m, a, s₃, some result⟩ :: processes,
        .restore hlaunch hstopped hpresent hrestore hprocesses
      simpa using hmutations

end Batch

/-! ### What processes leave -/

theorem Store.catalog?_of_unchanged {path : String} (h : Unchanged path d d') :
  catalog? d' path = catalog? d path
  := by
  rw [catalog?, catalog?, h.toOption_readText]

theorem Store.named?_of_unchanged {catalog id : String} (h : Unchanged catalog d d') :
  named? d' catalog id = named? d catalog id
  := by
  rw [named?, named?, catalog?_of_unchanged h]

theorem Store.mem_catalog_of_named? {catalog id : String} {m : Mutation}
    (h : m ∈ named? d catalog id) :
  m ∈ (catalog? d catalog).getD []
  := by
  obtain ⟨mutations, hmutations, hfind⟩ := Option.bind_eq_some_iff.mp h
  rw [hmutations]
  cases hresult : findMutation mutations id with
  | error e =>
    rw [hresult] at hfind
    cases hfind
  | ok m' =>
    rw [hresult] at hfind
    cases hfind
    apply mem_of_findMutation hresult

theorem CommandLine.Invocation.underTest?_test {i : Invocation} {catalog id : String}
    {output : Option String} {oracle : OracleArgs}
    (h : i.command = .test catalog id output oracle) :
  i.underTest? d events = Store.named? d catalog id
  := by
  rw [underTest?, h]
  rfl

/-- A process that tests one mutation of a catalog keeps the targets and spares all of them but the
file of the mutation, and if it succeeds this file is as it should be. -/
theorem CommandLine.Invocation.Completes.keeps {i : Invocation} {catalog id : String}
    {output : Option String} {oracle : OracleArgs} {completion : Completion}
    (hcommand : i.command = .test catalog id output oracle)
    (hlisted : ∀ m ∈ (Store.catalog? d catalog).getD [], Workable targets d.home m.file)
    (houtput : ∀ path ∈ output, Writable targets d.home path)
    (hs : Secured targets text d.home d) (h : i.Completes parser targets d completion d') :
  Secured targets text d.home d'
    ∧ (∀ file ∈ targets, (∀ m ∈ Store.named? d catalog id, m.file ≠ file) → Spared file d d')
    ∧ ∀ output, completion = .exited true output →
      ∀ m ∈ Store.named? d catalog id, m.file ∈ targets → Intact m.file (text m.file) d'
  := by
  have hworkable : ∀ mutations, Store.catalog? d catalog = some mutations →
      ∀ m ∈ mutations, Workable targets d.home m.file := by
    intro mutations hmutations
    rw [hmutations] at hlisted
    apply hlisted
  have hadmissible :
      i.command.Admissible (Writable targets d.home) (Workable targets d.home) d := by
    rw [hcommand]
    exact ⟨houtput, hworkable⟩
  have hspared : ∀ {events rest},
      Reaches (World.hazardous targets) (CommandLine.run parser i) d events rest d' →
      ∀ file ∈ targets, (∀ m ∈ Store.named? d catalog id, m.file ≠ file) → Spared file d d' := by
    intro events rest hreach file hfile hother
    apply spared_of_reaches hcommand _ houtput hfile (hs file hfile).exists_readContent hreach
    intro mutations m hmutations hfind
    use hworkable mutations hmutations m (Store.mem_of_findMutation hfind)
    have hnamed : m ∈ Store.named? d catalog id := by
      simp [Store.named?, hmutations, hfind, Except.toOption]
    exact (hother m hnamed).symm
  cases h with
  | ended hruns hclean =>
    obtain ⟨hs', hmended⟩ := (safekeeps_run hadmissible hs).post_of_runs (fun _ => rfl)
      (logged_of_reaches hruns hclean)
    use hs', hspared hruns
    intro _ hcompletion m hm htarget
    simp only [Completion.exited.injEq, beq_iff_eq] at hcompletion
    obtain ⟨m', hm', hintact⟩ := hmended (congrArg _ hcompletion.1) _ _ _ _ hcommand
    rw [underTest?_test hcommand, Option.mem_def.mp hm] at hm'
    cases hm'
    apply hintact htarget
  | killed hreach hclean hlast hfailed =>
    use secured_of_reaches hadmissible hs hreach hclean hlast, hspared hreach
    exact fun output hcompletion => absurd hcompletion (hfailed output)

namespace Batch

variable {options : BatchOptions} {catalog : String} {testCommand workdir : Option String}
  {m : Mutation} {mutations : List Mutation} {d₀ : Disk} {p : Process}

theorem Process.concerns_eq_false_iff :
  p.concerns d₀ catalog file = false ↔ p.mutation.file ≠ file
    ∧ ∀ m ∈ Store.named? d₀ catalog p.mutation.id, m.file ≠ file
  := by
  cases hnamed : Store.named? d₀ catalog p.mutation.id <;> simp [concerns, hnamed]

/-- The process of a mutation keeps the targets and spares all of them but the file of the mutation
with its id in the catalog, and if it succeeds this file is as it should be. -/
theorem keeps_of_launch {a : Except FileError Completion}
    (hlisted : ∀ m ∈ (Store.catalog? d catalog).getD [], Workable targets d.home m.file)
    (hresult : Writable targets d.home (Store.resultPath options.outputDir m.id))
    (hs : Secured targets text d.home d)
    (h : World.isolating parser targets
      (.launch (processLaunch m options program catalog testCommand workdir)) d a d') :
  Secured targets text d.home d'
    ∧ (∀ file ∈ targets, (∀ m' ∈ Store.named? d catalog m.id, m'.file ≠ file) → Spared file d d')
    ∧ ∀ i output, CommandLine.parse (cycleArgs m options catalog testCommand workdir) = .ok i →
      a = .ok (.exited true output) → ∀ m' ∈ Store.named? d catalog m.id, m'.file ∈ targets →
      Intact m'.file (text m'.file) d'
  := by
  have hidle : d' = d → Secured targets text d.home d'
      ∧ ∀ file ∈ targets, (∀ m' ∈ Store.named? d catalog m.id, m'.file ≠ file) →
        Spared file d d' := by
    rintro rfl
    use hs
    exact fun file _ _ => Spared.refl file _
  have h : CommandLine.Completes parser targets
      (cycleArgs m options catalog testCommand workdir) d a d' := h
  cases a with
  | error e =>
    use (hidle h).1, (hidle h).2
    intro i output _ hanswer
    cases hanswer
  | ok completion =>
    rw [CommandLine.Completes] at h
    cases hparse : CommandLine.parse (cycleArgs m options catalog testCommand workdir) with
    | error e =>
      rw [hparse] at h
      use (hidle h).1, (hidle h).2
      intro i output hparsed
      cases hparsed
    | ok i =>
      rw [hparse] at h
      obtain ⟨oracle, hcommand⟩ := CommandLine.exists_of_parse_cycleArgs hparse
      have houtput : ∀ path ∈ some (Store.resultPath options.outputDir m.id),
          Writable targets d.home path := by
        intro path hpath
        rw [← Option.some.inj hpath]
        apply hresult
      obtain ⟨hs', hspared, hsuccess⟩ := h.keeps hcommand hlisted houtput hs
      use hs', hspared
      intro i' output _ hanswer
      apply hsuccess output (Except.ok.inj hanswer)

/-- The restoration of a target puts its text back if it does not fail, leaves the backup if it
does, and spares the other targets. -/
theorem restores_of_runs {result : Except FileError Unit} (hwork : Workable targets d.home file)
    (hs : Secured targets text d.home d) (hpresent : d.isPresent (Backup.path file) = true)
    (h : Runs (World.isolating parser targets) (Backup.restore file (Backup.path file)) d events
      result d') :
  Secured targets text d.home d' ∧ (∀ other ∈ targets, other ≠ file → Spared other d d')
    ∧ (file ∈ targets → (Intact file (text file) d' ↔ result = .ok ()))
  := by
  have hregards := Backup.regards_restore hwork
  have hruns : Runs (World.hazardous targets) (Backup.restore file (Backup.path file)) d events
      result d' := by
    apply hregards.reaches _ h
    intro request s a s' hregards hanswer
    apply World.hazardous_of_isolating _ hanswer
    rw [← Bool.not_eq_true]
    exact hregards.trial
  have hspared : ∀ other ∈ targets, other ≠ file → Spared other d d' := by
    intro other hother hne
    have hsparing := (hregards.mono fun _ => CommandLine.spares_of_regards hother hne).sparing
      (hs other hother).exists_readContent (Spared.refl other d)
    apply hsparing.post_of_runs (fun _ => rfl) hruns
  have hsettled : file ∈ targets → Settled file (text file) d.home result d' := by
    intro hfile
    have hensures : Ensures (World.hazardous targets) Eq
        (Watched file (text file) d.home fun _ => True) (Settled file (text file) d.home)
        (Backup.restore file (Backup.path file)) d :=
      Backup.ensures_restore ((hs file hfile).held hpresent)
    apply hensures.post_of_runs (fun _ => rfl) hruns
  constructor
  · intro other hother
    by_cases heq : other = file
    · subst heq
      apply (hsettled hother).safe
    · apply (hs other hother).of_spared (hspared other hother heq)
  · use hspared
    intro hfile
    constructor
    · intro hintact
      cases result with
      | ok => rfl
      | error e =>
        have hheld := (hsettled hfile).held rfl
        cases hintact.backup.symm.trans
          (isPresent_of_readContent (readText_ok_iff.mp hheld.backup))
    · apply (hsettled hfile).intact

/-! ### The targets along the processes -/

/-- A process keeps the targets, and those that it concerns are as they should be if it has cleared
them. The other ones are spared. If it succeeds, it leaves no backup of the file that it is about. -/
structure Passes (targets : Set String) (text : String → String) (args : List String)
    (d₀ : Disk) (catalog : String) (d : Disk) (p : Process) (d' : Disk) : Prop where
  secured : Secured targets text d₀.home d'
  cleared : ∀ file ∈ targets, p.concerns d₀ catalog file = true →
    (Intact file (text file) d' ↔ p.Clears file)
  spared : ∀ file ∈ targets, p.concerns d₀ catalog file = false → Spared file d d'
  succeeded : ∀ i output, CommandLine.parse args = .ok i → p.answer = .ok (.exited true output) →
    ∀ m ∈ Store.named? d₀ catalog p.mutation.id, m.file ∈ targets →
      p.left.isPresent (Backup.path m.file) = false

/-- A process without a restoration clears the targets of which it leaves no backup. -/
theorem passes_of_launch {a : Except FileError Completion}
    (hlisted : ∀ m ∈ (Store.catalog? d₀ catalog).getD [], Workable targets d₀.home m.file)
    (hresult : Writable targets d₀.home (Store.resultPath options.outputDir m.id))
    (hs : Secured targets text d₀.home d) (hspared : Spared catalog d₀ d)
    (h : World.isolating parser targets
      (.launch (processLaunch m options program catalog testCommand workdir)) d a d₁) :
  Passes targets text (cycleArgs m options catalog testCommand workdir) d₀ catalog d
    ⟨m, a, d₁, none⟩ d₁
  := by
  have hhome := hspared.1.home
  have hnamed : Store.named? d catalog m.id = Store.named? d₀ catalog m.id :=
    Store.named?_of_unchanged hspared.1
  rw [← hhome] at hs hlisted hresult
  rw [← Store.catalog?_of_unchanged hspared.1] at hlisted
  obtain ⟨hs', hothers, hsuccess⟩ := keeps_of_launch hlisted hresult hs h
  rw [hnamed] at hothers hsuccess
  constructor
  · rw [← hhome]
    apply hs'
  · intro file hfile _
    constructor
    · exact fun hintact => .inl hintact.backup
    · rintro (habsent | ⟨-, hrestored⟩)
      · apply (hs' file hfile).intact habsent
      · cases hrestored
  · intro file hfile hconcerns
    apply hothers file hfile (Process.concerns_eq_false_iff.mp hconcerns).2
  · intro i output hparse hanswer m' hm' htarget
    apply (hsuccess i output hparse hanswer m' hm' htarget).backup

/-- After a restoration the file of the mutation is as it should be if the restoration did not
fail. -/
theorem Passes.restore {a : Except FileError Completion} {args : List String} {d₂ : Disk}
    {result : Except FileError Unit}
    (h : Passes targets text args d₀ catalog d ⟨m, a, d₁, none⟩ d₁) (hcatalog : catalog ∈ targets)
    (hwork : Workable targets d₀.home m.file)
    (hpresent : d₁.isPresent (Backup.path m.file) = true)
    (hrestore : Runs (World.isolating parser targets)
      (Backup.restore m.file (Backup.path m.file)) d₁ events result d₂) :
  Passes targets text args d₀ catalog d ⟨m, a, d₁, some result⟩ d₂
  := by
  have hhome : d₁.home = d₀.home := (h.secured catalog hcatalog).home
  have hsecured := h.secured
  rw [← hhome] at hwork hsecured
  obtain ⟨hs', hothers, hfile⟩ := restores_of_runs hwork hsecured hpresent hrestore
  constructor
  · rw [← hhome]
    apply hs'
  · intro file hfile' hconcerns
    by_cases heq : file = m.file
    · subst heq
      rw [hfile hfile', Process.Clears]
      simp [hpresent]
    · have hcleared := h.cleared file hfile' hconcerns
      rw [(hothers file hfile' heq).intact_iff, hcleared, Process.Clears, Process.Clears]
      simp [Ne.symm heq]
  · intro file hfile' hconcerns
    have hne := (Process.concerns_eq_false_iff.mp hconcerns).1
    apply (h.spared file hfile' hconcerns).trans (hothers file hfile' hne.symm)
  · apply h.succeeded

/-- A list of processes keeps the targets, and each target is as it should be if the last process
that concerns it has cleared it, or if it was so before and no process concerns it. None of the
processes that succeed leaves a backup of the file that it is about. -/
structure Keeps (targets : Set String) (text : String → String) (args : Mutation → List String)
    (d₀ : Disk) (catalog : String) (d : Disk) (processes : List Process) (d' : Disk) : Prop where
  secured : Secured targets text d₀.home d'
  cleared : ∀ file ∈ targets, Intact file (text file) d'
    ↔ ((processes.filter (·.concerns d₀ catalog file)).getLast?).elim (Intact file (text file) d)
      (·.Clears file)
  succeeded : ∀ p ∈ processes, ∀ i output, CommandLine.parse (args p.mutation) = .ok i →
    p.answer = .ok (.exited true output) → ∀ m ∈ Store.named? d₀ catalog p.mutation.id,
    m.file ∈ targets → p.left.isPresent (Backup.path m.file) = false

theorem Keeps.nil {args : Mutation → List String} (hs : Secured targets text d₀.home d) :
  Keeps targets text args d₀ catalog d [] d
  := by
  constructor
  · apply hs
  · exact fun _ _ => Iff.rfl
  · intro p hp
    cases hp

theorem Keeps.cons {args : Mutation → List String} {processes : List Process}
    (hp : Passes targets text (args p.mutation) d₀ catalog d p d₁)
    (h : Keeps targets text args d₀ catalog d₁ processes d') :
  Keeps targets text args d₀ catalog d (p :: processes) d'
  := by
  constructor
  · apply h.secured
  · intro file hfile
    rw [h.cleared file hfile]
    cases hconcerns : p.concerns d₀ catalog file with
    | false =>
      rw [List.filter_cons_of_neg (by simp [hconcerns]),
        (hp.spared file hfile hconcerns).intact_iff]
    | true =>
      rw [List.filter_cons_of_pos hconcerns, hp.cleared file hfile hconcerns, List.getLast?_cons]
      cases (processes.filter (·.concerns d₀ catalog file)).getLast? <;> rfl
  · intro p' hmem
    obtain rfl | hmem := List.mem_cons.mp hmem
    · apply hp.succeeded
    · apply h.succeeded p' hmem

/-- The processes of a batch keep the targets. -/
theorem Processes.keeps {processes : List Process} (hcatalog : catalog ∈ targets)
    (hlisted : ∀ m ∈ (Store.catalog? d₀ catalog).getD [],
      Workable targets d₀.home m.file ∧ m.file ≠ catalog)
    (hmutations : ∀ p ∈ processes, (Workable targets d₀.home p.mutation.file
      ∧ p.mutation.file ≠ catalog)
      ∧ Writable targets d₀.home (Store.resultPath options.outputDir p.mutation.id))
    (hs : Secured targets text d₀.home d) (hspared : Spared catalog d₀ d)
    (h : Processes (World.isolating parser targets) options program catalog testCommand workdir d
      processes d') :
  Keeps targets text (cycleArgs · options catalog testCommand workdir) d₀ catalog d processes d'
  := by
  -- No process concerns the catalog, so that it always finds the same mutations there.
  have hcatalog' : ∀ {m : Mutation} {a d₁ restoration}, m.file ≠ catalog →
      (⟨m, a, d₁, restoration⟩ : Process).concerns d₀ catalog catalog = false := by
    intro m a d₁ restoration hne
    apply Process.concerns_eq_false_iff.mpr
    use hne
    intro m' hm'
    apply (hlisted m' _).2
    apply Store.mem_catalog_of_named? hm'
  induction h with
  | nil => apply Keeps.nil hs
  | cons hlaunch _ hrest ih =>
    obtain ⟨⟨⟨hwork, hne⟩, hresult⟩, hmutations⟩ := List.forall_mem_cons.mp hmutations
    have hpasses := passes_of_launch (fun m hm => (hlisted m hm).1) hresult hs hspared hlaunch
    apply Keeps.cons hpasses
    apply ih hmutations hpasses.secured
    apply hspared.trans (hpasses.spared catalog hcatalog (hcatalog' hne))
  | restore hlaunch _ hpresent hrestore _ ih =>
    obtain ⟨⟨⟨hwork, hne⟩, hresult⟩, hmutations⟩ := List.forall_mem_cons.mp hmutations
    have hpasses := (passes_of_launch (fun m hm => (hlisted m hm).1) hresult hs hspared
      hlaunch).restore hcatalog hwork hpresent hrestore
    apply Keeps.cons hpasses
    apply ih hmutations hpasses.secured
    apply hspared.trans (hpasses.spared catalog hcatalog (hcatalog' hne))

/-- Targets that hold their texts and have no backups can be worked on by a batch whose processes
take mutations from a catalog. The catalog is a target that no mutation is made in, and each target
is named by one path and none is compiled code of another one. What the batch works on is a target
or can be worked on, and where it writes may be written to. -/
structure Arranged (targets : Set String) (text : String → String) (d : Disk) (catalog : String)
    (mutations : List Mutation) (options : BatchOptions) : Prop where
  intact : ∀ file ∈ targets, Intact file (text file) d
  named : Set.InjOn (place d.home) targets
  compiled : ∀ file ∈ targets, ∀ path, Backup.Clears file path → ∀ other ∈ targets,
    place d.home other ≠ place d.home path
  listed : catalog ∈ targets
  files : ∀ m ∈ mutations ++ (Store.catalog? d catalog).getD [],
    m.file ≠ catalog ∧ (m.file ∈ targets ∨ Workable targets d.home m.file)
  directory : Writable targets d.home options.outputDir
  results : ∀ m ∈ mutations, Writable targets d.home (Store.resultPath options.outputDir m.id)

theorem Arranged.workable (h : Arranged targets text d catalog mutations options)
    (hm : m ∈ mutations ++ (Store.catalog? d catalog).getD []) :
  Workable targets d.home m.file ∧ m.file ≠ catalog
  := by
  obtain ⟨hne, hfile | hwork⟩ := h.files m hm
  · exact ⟨workable_of_intact h.intact h.named h.compiled hfile, hne⟩
  · exact ⟨hwork, hne⟩

/-- When a batch has finished whose cycles run in processes, each target holds its text or has a
backup that does. It holds its text and has no backup just if the last process that concerns it has
left no backup of it, or the file was restored after that process. No process that has succeeded has
left a backup of the file that it was about. -/
theorem isolated_intact_iff {outcome : BatchOutcome}
    (harranged : Arranged targets text d catalog mutations options)
    (hisolation : options.isolation = .subprocess .itself catalog testCommand workdir)
    (h : Runs (World.isolating parser targets) (Batch.run parser mutations options) d events
      (.finished outcome) d') :
  ∃ d₁ processes, World.hazardous targets (.file (.makeDirectories options.outputDir)) d (.ok ()) d₁
    ∧ Processes (World.isolating parser targets) options .itself catalog testCommand workdir d₁
      processes d'
    ∧ processes.map (·.mutation) = mutations.take outcome.results.length
    ∧ (∀ file ∈ targets, Intact file (text file) d' ∨ BackedUp file (text file) d')
    ∧ (∀ file ∈ targets, Intact file (text file) d'
      ↔ ∀ p ∈ (processes.filter (·.concerns d catalog file)).getLast?, p.Clears file)
    ∧ ∀ p ∈ processes, ∀ i output,
      CommandLine.parse (cycleArgs p.mutation options catalog testCommand workdir) = .ok i →
      p.answer = .ok (.exited true output) → ∀ m ∈ Store.named? d catalog p.mutation.id,
      m.file ∈ targets → p.left.isPresent (Backup.path m.file) = false
  := by
  obtain ⟨turns, d₁, rest, hmake, hturns, hends⟩ := exists_turns_of_finished h
  have hfinished : ∀ turn ∈ turns, ∃ result, turn.2 = .finished result := by
    rw [hends.eq_zip]
    intro turn hturn
    obtain ⟨⟨m, result⟩, -, rfl⟩ := List.mem_map.mp hturn
    use result
  obtain ⟨processes, hprocesses, hmutations⟩ := exists_processes hisolation hfinished hturns
  have hmake : World.hazardous targets (.file (.makeDirectories options.outputDir)) d (.ok ()) d₁ :=
    hmake
  have hspared : ∀ file ∈ targets, Spared file d d₁ := fun file hfile =>
    Request.spares_makeDirectories (harranged.directory.aside file hfile) hmake rfl
      ⟨_, readText_ok_iff.mp (harranged.intact file hfile).content⟩
  have hintact₁ : ∀ file ∈ targets, Intact file (text file) d₁ := fun file hfile =>
    (hspared file hfile).intact_iff.mpr (harranged.intact file hfile)
  have hsecured : Secured targets text d.home d₁ := fun file hfile =>
    ⟨(hspared file hfile).1.home, .inl (hintact₁ file hfile)⟩
  have hprocessed : ∀ p ∈ processes, p.mutation ∈ mutations := by
    intro p hp
    apply hends.map_fst_prefix.subset
    rw [← hmutations]
    apply List.mem_map_of_mem hp
  have hkeeps := hprocesses.keeps harranged.listed
    (fun m hm => harranged.workable (List.mem_append_right _ hm))
    (fun p hp => ⟨harranged.workable (List.mem_append_left _ (hprocessed p hp)),
      harranged.results _ (hprocessed p hp)⟩) hsecured (hspared catalog harranged.listed)
  use d₁, processes, hmake, hprocesses
  constructor
  · rw [hmutations, hends.map_fst_eq_take]
  constructor
  · exact fun file hfile => (hkeeps.secured file hfile).kept
  constructor
  · intro file hfile
    rw [hkeeps.cleared file hfile]
    cases (processes.filter (·.concerns d catalog file)).getLast? with
    | none => simp [hintact₁ file hfile]
    | some p => simp
  · apply hkeeps.succeeded

end Batch

/-! ### Processes that are killed -/

/-- Answers requests with a disk on which nothing unforeseen happens, where each process is killed
after some of its requests and seems to have ended in some way. -/
def Disk.serveKilled (parser : Parser) (n : Nat) (completion : Completion) :
    (request : Request) → Disk → request.Answer × Disk
  | .launch l, d => match CommandLine.parse l.args with
    | .error _ => (.error .notFound, d)
    | .ok i =>
      let killed := (CommandLine.run parser i).advance Disk.serve n d
      if CleansUp killed.1 ∧ ∀ event ∈ killed.1.getLast?, event.isUnfinished = false then
        (.ok completion, killed.2.2)
      else (.error .notFound, d)
  | request, d => Disk.serve request d

theorem World.isolating_of_serveKilled {n : Nat} {completion : Completion}
    (hcompletion : ∀ output, completion ≠ .exited true output) (request : Request) (d : Disk)
    (a : request.Answer) (d' : Disk)
    (h : World.ofAnswer (Disk.serveKilled parser n completion) request d a d') :
  World.isolating parser targets request d a d'
  := by
  cases request with
  | launch l =>
    change CommandLine.Completes parser targets l.args d a d'
    rw [World.ofAnswer, Disk.serveKilled] at h
    cases hparse : CommandLine.parse l.args with
    | error e =>
      rw [hparse] at h
      cases h
      rfl
    | ok i =>
      rw [hparse] at h
      dsimp only at h
      split at h
      · next hfair =>
        cases h
        rw [CommandLine.Completes, hparse]
        exact .killed (World.reaches_of_advance targets rfl) hfair.1 hfair.2 hcompletion
      · cases h
        rfl
  | file | consult | isInterrupted | clock | print =>
    change World.hazardous targets _ d a d'
    apply World.hazardous_of_serve
    exact h

/-- Batches into a directory whose processes take the mutations from a catalog. -/
def BatchOptions.cataloged (outputDir catalog : String) : BatchOptions :=
  { BatchOptions.plain outputDir with isolation := .subprocess .itself catalog none none }

theorem writable_of_place_ne {path : String}
    (h : ∀ file ∈ targets, place home file ≠ place home path
      ∧ place home (Backup.path file) ≠ place home path
      ∧ place home (Backup.path file) ∉ passes home path) :
  Writable targets home path
  := by
  constructor
  · exact fun file hfile => ⟨fun _ _ => (h file hfile).1, fun _ _ => (h file hfile).2.1⟩
  · exact fun file hfile => (h file hfile).2.2

namespace Batch

/-- A batch of the one mutation of a catalog. -/
theorem arranged_single :
  let d := (Disk.single "a.go" "<").withCatalog "a.go"
  Arranged {file | file ∈ ["a.go", "c"]} (fun file => (d.readText file).toOption.getD "") d "c"
    ((Store.catalog? d "c").getD []) (.cataloged "r" "c")
  := by
  intro d
  have hintact : ∀ file ∈ ["a.go", "c"], d.readText file = .ok ((d.readText file).toOption.getD "")
      ∧ d.isPresent (Backup.path file) = false := by
    decide +kernel
  have hnamed : ∀ file ∈ ["a.go", "c"], ∀ other ∈ ["a.go", "c"],
      place d.home file = place d.home other → file = other := by
    decide +kernel
  have hextension : ∀ file ∈ ["a.go", "c"], Path.extension? file ≠ some "py" := by
    decide +kernel
  have hmutations : ((Store.catalog? d "c").getD []).map (fun m => (m.file, m.id))
      = [("a.go", "M")] := by
    decide +kernel
  have hwritable : ∀ path ∈ ["r", Store.resultPath "r" "M"], ∀ file ∈ ["a.go", "c"],
      place d.home file ≠ place d.home path
        ∧ place d.home (Backup.path file) ≠ place d.home path
        ∧ place d.home (Backup.path file) ∉ passes d.home path := by
    decide +kernel
  -- From here on the disk is a variable, so that no step of the proof computes it.
  clear_value d
  have hm : ∀ m ∈ (Store.catalog? d "c").getD [], m.file = "a.go" ∧ m.id = "M" := by
    intro m hm
    have hmem := List.mem_map_of_mem (f := fun m => (m.file, m.id)) hm
    rw [hmutations] at hmem
    simpa using hmem
  constructor
  · exact fun file hfile => ⟨(hintact file hfile).1, (hintact file hfile).2⟩
  · exact fun file hfile other hother => hnamed file hfile other hother
  · rintro file hfile path ⟨hpython, -⟩
    cases hextension file hfile hpython
  · simp
  · intro m hmem
    rw [(hm m _).1]
    · simp
    · simpa using hmem
  · apply writable_of_place_ne (hwritable "r" (by simp))
  · intro m hmem
    rw [(hm m hmem).2]
    apply writable_of_place_ne (hwritable _ (by simp [BatchOptions.cataloged, BatchOptions.plain]))

/-- If a batch finishes whose processes are killed, it has had a run that finished. -/
theorem exists_runs_serveKilled {mutations : List Mutation} {options : BatchOptions} {n : Nat}
    {completion : Completion} {ran : BatchEnd × Disk}
    (hcompletion : ∀ output, completion ≠ .exited true output)
    (hran : (Batch.run parser mutations options).run (Disk.serveKilled parser n completion) d = ran)
    (hfinished : ran.1.outcome?.isSome = true) :
  ∃ events outcome, Runs (World.isolating parser targets) (Batch.run parser mutations options) d
    events (.finished outcome) ran.2
  := by
  have hruns : Runs (World.isolating parser targets) (Batch.run parser mutations options) d _ _ _ :=
    (runs_run (Disk.serveKilled parser n completion) (Batch.run parser mutations options) d).mono
      (World.isolating_of_serveKilled hcompletion)
  obtain ⟨outcome, houtcome⟩ := Option.isSome_iff_exists.mp hfinished
  rw [hran, BatchEnd.outcome?_eq_some_iff.mp houtcome] at hruns
  exact ⟨_, outcome, hruns⟩

/-- A process that is stopped while its mutant is in the file has its file restored. -/
theorem isolated_intact_stopped :
  let d := (Disk.single "a.go" "<").withCatalog "a.go"
  let killed := (CommandLine.run Parser.single .plain).advance Disk.serve 8 d
  let ran := (Batch.run Parser.single ((Store.catalog? d "c").getD []) (.cataloged "r" "c")).run
    (Disk.serveKilled Parser.single 8 (.timedOut "")) d
  killed.2.2.readText "a.go" = .ok ">" ∧ ran.2.readText "a.go" = .ok "<"
    ∧ ∃ d₁ processes, Processes (World.isolating Parser.single {file | file ∈ ["a.go", "c"]})
        (.cataloged "r" "c") .itself "c" none none d₁ processes ran.2
      ∧ ∀ p ∈ (processes.filter (·.concerns d "c" "a.go")).getLast?, p.Clears "a.go"
  := by
  have harranged := arranged_single
  generalize hd : (Disk.single "a.go" "<").withCatalog "a.go" = d at harranged ⊢
  dsimp only
  generalize hkilled : (CommandLine.run Parser.single .plain).advance Disk.serve 8 d = killed
  generalize hran : (Batch.run Parser.single ((Store.catalog? d "c").getD [])
    (.cataloged "r" "c")).run (Disk.serveKilled Parser.single 8 (.timedOut "")) d = ran
  have hmutant : killed.2.2.readText "a.go" = .ok ">" := by
    rw [← hkilled, ← hd]
    decide +kernel
  have hend : ran.1.outcome?.isSome = true ∧ ran.2.readText "a.go" = .ok "<"
      ∧ ran.2.isPresent (Backup.path "a.go") = false
      ∧ (d.readText "a.go").toOption.getD "" = "<" := by
    rw [← hran, ← hd]
    decide +kernel
  have hisolation : (BatchOptions.cataloged "r" "c").isolation
    = .subprocess .itself "c" none none := rfl
  obtain ⟨hfinished, htext, habsent, hsaved⟩ := hend
  obtain ⟨events, outcome, hruns⟩ := exists_runs_serveKilled (by simp) hran hfinished
  obtain ⟨d₁, processes, -, hprocesses, -, -, hiff, -⟩ :=
    isolated_intact_iff harranged hisolation hruns
  use hmutant, htext, d₁, processes, hprocesses
  apply (hiff "a.go" (by simp)).mp
  rw [hsaved]
  exact ⟨htext, habsent⟩

/-- A target is lost to a mutant if the last process that works on it is killed by a signal, since
the batch restores nothing after a process that it did not stop. -/
theorem not_isolated_intact :
  ¬∀ {parser targets text d catalog mutations options testCommand workdir events outcome d'},
    Arranged targets text d catalog mutations options →
    options.isolation = .subprocess .itself catalog testCommand workdir →
    Runs (World.isolating parser targets) (Batch.run parser mutations options) d events
      (.finished outcome) d' →
    ∀ file ∈ targets, Intact file (text file) d'
  := by
  intro h
  have harranged := arranged_single
  generalize hd : (Disk.single "a.go" "<").withCatalog "a.go" = d at harranged
  generalize hran : (Batch.run Parser.single ((Store.catalog? d "c").getD [])
    (.cataloged "r" "c")).run (Disk.serveKilled Parser.single 8 (.exited false "")) d = ran
  have hend : ran.1.outcome?.isSome = true ∧ ran.2.readText "a.go" = .ok ">"
      ∧ (d.readText "a.go").toOption.getD "" = "<" := by
    rw [← hran, ← hd]
    decide +kernel
  have hisolation : (BatchOptions.cataloged "r" "c").isolation
    = .subprocess .itself "c" none none := rfl
  obtain ⟨hfinished, htext, hsaved⟩ := hend
  obtain ⟨events, outcome, hruns⟩ := exists_runs_serveKilled (by simp) hran hfinished
  have hintact := h harranged hisolation hruns "a.go" (by simp)
  rw [hsaved] at hintact
  have hother := htext.symm.trans hintact.content
  simp at hother

end Batch

end MutationTesting
