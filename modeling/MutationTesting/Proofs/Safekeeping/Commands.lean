import MutationTesting.CommandLine.Run
import MutationTesting.Proofs.Command
import MutationTesting.Proofs.Safekeeping.Cycle
import MutationTesting.Proofs.Store

/-!
# Commands keep the targets

What commands do `Safekeeps` the targets: whatever fails on the way, each request leaves all of
them safe, except in the midst of making a backup, and tests are run only as they should be. Most
requests are `Request.Harmless`. The others are about one file, and they keep all targets if they
keep this file, in case it is one. A batch asks before each of its cycles whether there was an
interruption, so that the `rounds` tell which of its mutations is tested.
-/

namespace MutationTesting

open Disk Procedure

/-- Whether a request is the one that a batch makes before each cycle. -/
def Request.isCheck : Request → Bool
  | .isInterrupted => true
  | .file _ | .consult _ _ | .launch _ | .clock | .print _ => false

/-- How many cycles a batch has come to. -/
def rounds (log : List Event) : Nat := log.countP (·.1.isCheck)

/-- A request runs no tests, comes to no new cycle and leaves all targets as they are. -/
structure Request.Harmless (targets : Set String) (home : Location) (request : Request) :
    Prop where
  trial : request.isTrial = false
  check : request.isCheck = false
  spares : ∀ file ∈ targets, request.Spares targets home file

/-- A request is about one file: it comes to no new cycle and leaves all targets but the file as
they are, and tests are run only if there are trials. -/
structure Request.Regards (targets : Set String) (home : Location) (file : String)
    (trials : Prop) (request : Request) : Prop where
  check : request.isCheck = false
  spares : ∀ other ∈ targets, other ≠ file → request.Spares targets home other
  trial : request.isTrial = true → trials

/-- An event leaves all targets safe, unless it leaves a backup unfinished, and tests are run only
as they should be. -/
structure WatchedAll (targets : Set String) (text : String → String) (home : Location)
    (tested : List Event × Disk → Prop) (s : List Event × Disk) (event : Event)
    (s' : List Event × Disk) : Prop where
  secured : event.isUnfinished = false → Secured targets text home s'.2
  trial : event.1.isTrial = true → tested s

/-- Each request of a procedure leaves all targets safe and runs tests only as it should, and in
the end there is a state as required. -/
abbrev Safekeeps {α : Type} (targets : Set String) (text : String → String) (home : Location)
    (tested : List Event × Disk → Prop) (post : α → List Event × Disk → Prop) (p : Procedure α)
    (s : List Event × Disk) : Prop :=
  Ensures ((World.hazardous targets).logged CleansUp) Eq (WatchedAll targets text home tested) post
    p s

/-- All targets are safe, and a batch is still at the same cycle. -/
structure Abides (targets : Set String) (text : String → String) (home : Location)
    (s s' : List Event × Disk) : Prop where
  secured : Secured targets text home s'.2
  rounds : rounds s'.1 = rounds s.1

/-- The disk has not changed, and a batch is still at the same cycle. -/
structure Steady (s s' : List Event × Disk) : Prop where
  disk : s'.2 = s.2
  rounds : rounds s'.1 = rounds s.1

variable {targets : Set String} {text : String → String} {home : Location} {file : String}
  {tested : List Event × Disk → Prop} {s s' : List Event × Disk} {d : Disk} {log : List Event}
  {request : Request}

@[simp] theorem rounds_append_single (log : List Event) (event : Event) :
  rounds (log ++ [event]) = rounds log + if event.1.isCheck then 1 else 0
  := by
  simp [rounds, List.countP_append, List.countP_cons]

namespace Request

theorem isTrial_of_isReading (h : request.isReading = true) :
  request.isTrial = false
  := by
  cases request with
  | consult => cases h
  | launch => cases h
  | file | isInterrupted | clock | print => rfl

theorem harmless_of_isReading (h : request.isReading = true) (hcheck : request.isCheck = false) :
  request.Harmless targets home
  := ⟨isTrial_of_isReading h, hcheck, fun _ _ => spares_of_isReading h⟩

theorem harmless_write {path content : String} (h : Writable targets home path) :
  (Request.file (.write path content)).Harmless targets home
  := ⟨rfl, rfl, fun _ hfile => spares_of_target? rfl h.apart hfile⟩

theorem harmless_makeDirectories {path : String}
    (h : ∀ file ∈ targets, place home (Backup.path file) ∉ passes home path) :
  (Request.file (.makeDirectories path)).Harmless targets home
  := ⟨rfl, rfl, fun file hfile => spares_makeDirectories (h file hfile)⟩

variable {operation : FileOperation}

theorem Regards.mono {trials : Prop} (h : request.Regards targets home file False) :
  request.Regards targets home file trials
  := by
  use h.check, h.spares
  intro htrial
  cases h.trial htrial

theorem regards_of_isReading (h : operation.isReading = true) :
  (Request.file operation).Regards targets home file False
  := by
  constructor
  · rfl
  · exact fun _ _ _ => spares_of_isReading h
  · intro hfalse
    cases hfalse

theorem regards_of_target? {path : String} (htarget : operation.target? = some path)
    (h : Apart (targets \ {file}) home path) :
  (Request.file operation).Regards targets home file False
  := by
  constructor
  · rfl
  · intro other hother hne
    apply spares_of_target? htarget h ⟨hother, hne⟩
  · intro hfalse
    cases hfalse

end Request

namespace Abides

theorem trans {s'' : List Event × Disk} (h : Abides targets text home s s')
    (h' : Abides targets text home s' s'') :
  Abides targets text home s s''
  := ⟨h'.secured, h'.rounds.trans h.rounds⟩

end Abides

theorem Steady.trans {s'' : List Event × Disk} (h : Steady s s') (h' : Steady s' s'') :
  Steady s s''
  := ⟨h'.disk.trans h.disk, h'.rounds.trans h.rounds⟩

theorem Steady.abides (h : Steady s s') (hs : Secured targets text home s.2) :
  Abides targets text home s s'
  := ⟨h.disk ▸ hs, h.rounds⟩

/-! ### Harmless procedures -/

section

variable {α : Type} {p : Procedure α}

theorem rounds_of_logged {w : World Disk} {a : request.Answer} {fair : List Event → Prop}
    (h : w.logged fair request s a s') (hcheck : request.isCheck = false) :
  rounds s'.1 = rounds s.1
  := by
  rw [h.2.1]
  simp [hcheck]

/-- What only looks at things leaves everything as it was. -/
theorem watched_of_reading {a : request.Answer} (h : request.isReading = true)
    (hcheck : request.isCheck = false) (hs : Secured targets text home s.2)
    (hanswer : (World.hazardous targets).logged CleansUp request s a s') :
  WatchedAll targets text home tested s ⟨request, a⟩ s' ∧ Steady s s'
  := by
  have hsteady : Steady s s' :=
    ⟨World.eq_of_isReading h hanswer.1, rounds_of_logged hanswer hcheck⟩
  constructor
  · constructor
    · exact fun _ => (hsteady.abides hs).secured
    · intro htrial
      cases htrial.symm.trans (Request.isTrial_of_isReading h)
  · apply hsteady

theorem safekeeps_reading {f : request.Answer → Procedure α} {post : α → List Event × Disk → Prop}
    (h : request.isReading = true) (hcheck : request.isCheck = false)
    (hs : Secured targets text home s.2)
    (hrest : ∀ a s', Steady s s' → World.hazardous targets request s.2 a s'.2 →
      Safekeeps targets text home tested post (f a) s') :
  Safekeeps targets text home tested post (Procedure.request request >>= f) s
  := by
  apply Ensures.request
  rintro _ rfl a s' hanswer
  obtain ⟨hwatched, hsteady⟩ := watched_of_reading h hcheck hs hanswer
  use hwatched
  apply hrest a s' hsteady hanswer.1

/-- Harmless requests leave all targets as they are. -/
theorem safekeeps_sparing (h : p.Asks (Request.Harmless targets home))
    (hs : Secured targets text home s.2) :
  Safekeeps targets text home tested
    (fun _ s' => Abides targets text home s s' ∧ ∀ file ∈ targets, Spared file s.2 s'.2) p s
  := by
  apply h.ensures _ ⟨⟨hs, rfl⟩, fun file _ => Spared.refl file s.2⟩
  rintro request s₁ a s₂ hharmless hanswer ⟨habides, hspared⟩
  have hspares : ∀ file ∈ targets, Spared file s₁.2 s₂.2 := fun file hfile =>
    hharmless.spares file hfile hanswer.1 (habides.secured file hfile).home
      (habides.secured file hfile).exists_readContent
  have hsecured : Secured targets text home s₂.2 := fun file hfile =>
    (habides.secured file hfile).of_spared (hspares file hfile)
  constructor
  · constructor
    · exact fun _ => hsecured
    · intro htrial
      cases htrial.symm.trans hharmless.trial
  · constructor
    · use hsecured
      rw [rounds_of_logged hanswer hharmless.check, habides.rounds]
    · exact fun file hfile => (hspared file hfile).trans (hspares file hfile)

/-- Harmless requests keep all targets. -/
theorem safekeeps_of_harmless (h : p.Asks (Request.Harmless targets home))
    (hs : Secured targets text home s.2) :
  Safekeeps targets text home tested (fun _ s' => Abides targets text home s s') p s
  := (safekeeps_sparing h hs).mono fun _ _ => And.left

/-- Something harmless may follow. -/
theorem Abides.safekeeps (h : Abides targets text home s s')
    (hp : p.Asks (Request.Harmless targets home)) :
  Safekeeps targets text home tested (fun _ s'' => Abides targets text home s s'') p s'
  := by
  apply (safekeeps_of_harmless hp h.secured).mono
  intro _ s''
  apply h.trans

/-- What is done about one file keeps all targets, if it keeps the file in case that it is one. -/
theorem safekeeps_of_watched (file : String) (own : Disk → Prop) (ends : α → Disk → Prop)
    {trials : Prop} (hasks : p.Asks (Request.Regards targets home file trials))
    (hown : file ∈ targets → Safe file (text file) home s.2 →
      Ensures ((World.hazardous targets).logged CleansUp) Eq
        (fun s event s' => Watched file (text file) home own s.2 event s'.2)
        (fun value s => Safe file (text file) home s.2 ∧ ends value s.2) p s)
    (htested : trials → ∀ s', rounds s'.1 = rounds s.1 → (file ∈ targets → own s'.2) → tested s')
    (hs : Secured targets text home s.2) :
  Safekeeps targets text home tested
    (fun value s' => Abides targets text home s s' ∧ (file ∈ targets → ends value s'.2)) p s
  := by
  let others (s' : List Event × Disk) : Prop := rounds s'.1 = rounds s.1
    ∧ ∀ other ∈ targets, other ≠ file → Safe other (text other) home s'.2
  have hothers : ∀ request s₁ a s₂, request.Regards targets home file trials →
      (World.hazardous targets).logged CleansUp request s₁ a s₂ → others s₁ → others s₂ := by
    rintro request s₁ a s₂ hregards hanswer ⟨hrounds, hsafe⟩
    constructor
    · rw [rounds_of_logged hanswer hregards.check, hrounds]
    · intro other hother hne
      apply (hregards.spares other hother hne).keeps hanswer.1 (hsafe other hother hne)
  have hstart : others s := ⟨rfl, fun other hother _ => hs other hother⟩
  have hsecured : ∀ {s'}, others s' → (file ∈ targets → Safe file (text file) home s'.2) →
      Secured targets text home s'.2 := by
    intro s' hs' hfile other hother
    by_cases heq : other = file
    · subst heq
      apply hfile hother
    · apply hs'.2 other hother heq
  by_cases hfile : file ∈ targets
  · have hensures := hasks.ensures_and hothers hstart (hown hfile (hs file hfile))
    apply Ensures.mono_step _ (hensures.mono _)
    · rintro s₁ event s₂ ⟨hregards, h₁, h₂, hwatched⟩
      constructor
      · intro hfinished
        apply hsecured h₂ fun _ => hwatched.safe hfinished
      · intro htrial
        apply htested (hregards.trial htrial) s₁ h₁.1 fun _ => hwatched.trial htrial
    · rintro value s' ⟨hs', hsafe, hends⟩
      exact ⟨⟨hsecured hs' fun _ => hsafe, hs'.1⟩, fun _ => hends⟩
  · apply (hasks.ensures _ hstart).mono
    · intro value s' hs'
      exact ⟨⟨hsecured hs' fun hmem => absurd hmem hfile, hs'.1⟩, fun hmem => absurd hmem hfile⟩
    · intro request s₁ a s₂ hregards hanswer hs₁
      have hs₂ := hothers request s₁ a s₂ hregards hanswer hs₁
      refine ⟨⟨?_, ?_⟩, hs₂⟩
      · exact fun _ => hsecured hs₂ fun hmem => absurd hmem hfile
      · intro htrial
        apply htested (hregards.trial htrial) s₁ hs₁.1 fun hmem => absurd hmem hfile

end

/-! ### Work on one file -/

theorem Cycle.Involves.regards {m : Mutation} {options : CycleOptions}
    (h : Involves m options request) (hwork : Workable targets home m.file) :
  request.isConsultation = true ∨ request.Regards targets home m.file True
  := by
  cases h with
  | consult =>
    left
    rfl
  | create => exact .inr (Request.regards_of_target? rfl hwork.backup).mono
  | fill => exact .inr (Request.regards_of_target? rfl hwork.backup).mono
  | write => exact .inr (Request.regards_of_target? rfl hwork.itself).mono
  | settle hfile hbackup hsettles =>
    right
    cases hsettles with
    | clock => exact ⟨rfl, fun _ _ _ => Request.spares_of_isReading rfl, fun _ => trivial⟩
    | read => exact (Request.regards_of_isReading rfl).mono
    | write => exact (Request.regards_of_target? rfl (hfile ▸ hwork.itself)).mono
    | remove => exact (Request.regards_of_target? rfl (hbackup ▸ hwork.backup)).mono
    | list => exact (Request.regards_of_isReading rfl).mono
    | removeCompiled hclears =>
      exact (Request.regards_of_target? rfl (hwork.compiled _ (hfile ▸ hclears))).mono

theorem TestCommand.asks_oracle {command : TestCommand} {scope : String} {limit : Duration} :
  (command.oracle scope limit).Asks (Request.Regards targets home file True)
  := by
  have hlaunch : ∀ l, (Request.launch l).Regards targets home file True := by
    intro l
    constructor
    · rfl
    · exact fun _ hother _ => Request.spares_of_isTrial rfl hother
    · exact fun _ => trivial
  rw [oracle, runProgram]
  apply Asks.bind
  · refine Asks.request ⟨rfl, fun _ _ _ => Request.spares_of_isReading rfl, fun _ => trivial⟩
      fun start => ?_
    refine Asks.request (hlaunch _) fun a => ?_
    split
    · split <;> trivial
    · trivial
  · exact fun _ => trivial

/-- A cycle keeps all targets and tests its mutant only while the mutant stands. If it comes to a
result, a target that was as it should be still is. -/
theorem CommandLine.safekeeps_cycleWith {parser : Parser} {command : TestCommand} {m : Mutation}
    {options : CycleOptions} (hwork : Workable targets home m.file)
    (htested : ∀ s', rounds s'.1 = rounds s.1 →
      (m.file ∈ targets → m.Stands parser (text m.file) s'.2) → tested s')
    (hs : Secured targets text home s.2) :
  Safekeeps targets text home tested
    (fun run s' => Abides targets text home s s' ∧ (m.file ∈ targets →
      (∃ result, run.ending = .finished result) → Intact m.file (text m.file) s.2 →
      Intact m.file (text m.file) s'.2))
    (cycleWith parser command m options) s
  := by
  have hasks : (cycleWith parser command m options).Asks
      (Request.Regards targets home m.file True) :=
    Asks.withOracle (Cycle.asks_run.mono fun _ hinvolves => hinvolves.regards hwork)
      fun _ _ => TestCommand.asks_oracle
  apply safekeeps_of_watched m.file (m.Stands parser (text m.file)) (fun run d =>
    (∃ result, run.ending = .finished result) → Intact m.file (text m.file) s.2 →
      Intact m.file (text m.file) d) hasks _ (fun _ => htested) hs
  intro htarget hsafe
  apply Cycle.run_watched htarget (fun _ => id) hsafe

theorem Backup.regards_restore (hwork : Workable targets home file) :
  (restore file (path file)).Asks (Request.Regards targets home file False)
  := Backup.asks_restore (Request.regards_of_target? rfl hwork.itself)
    (Request.regards_of_target? rfl hwork.backup) (fun _ => Request.regards_of_isReading rfl)
    fun path hclears => Request.regards_of_target? rfl (hwork.compiled path hclears)

/-! ### Reading and writing records -/

namespace Store

variable {α : Type} {path : String}

/-- The catalog that a file holds. -/
def catalog? (d : Disk) (path : String) : Option (List Mutation) :=
  (d.readText path).toOption.bind (Record.parse? (Record.list? Record.mutation?))

/-- A catalog that is loaded is the one in the file. -/
theorem ensures_loadCatalog {σ : Type} {w : World σ} (disk : σ → Disk)
    {step : σ → Event → σ → Prop} {kept : σ → Prop} {s : σ}
    (hread : ∀ a s', w (.file (.readText path)) s a s' → (disk s).Yields (.readText path) a (disk s')
      ∧ step s ⟨.file (.readText path), a⟩ s' ∧ kept s') :
  Ensures w Eq step
    (fun result s' => kept s'
      ∧ ∀ catalog, result = .ok catalog → catalog? (disk s) path = some catalog)
    (loadCatalog path) s
  := by
  apply Ensures.request
  rintro _ rfl a s' hanswer
  obtain ⟨hyields, hstep, hkept⟩ := hread a s' hanswer
  obtain ⟨-, htext⟩ := hyields.readText
  use hstep
  cases a with
  | error e =>
    rintro _ rfl
    use hkept
    simp
  | ok text =>
    have hcatalog : catalog? (disk s) path
        = Record.parse? (Record.list? Record.mutation?) text := by
      rw [catalog?, htext text rfl]
      rfl
    dsimp only
    split
    · next catalog hparse =>
      rintro _ rfl
      use hkept
      rintro _ ⟨⟩
      rw [hcatalog, hparse]
    · rintro _ rfl
      use hkept
      simp

/-- The targets are kept while a catalog is loaded. -/
theorem safekeeps_loadCatalog (hs : Secured targets text home s.2) :
  Safekeeps targets text home tested
    (fun result s' => Steady s s'
      ∧ ∀ catalog, result = .ok catalog → catalog? s.2 path = some catalog)
    (loadCatalog path) s
  := ensures_loadCatalog Prod.snd fun _ _ hanswer =>
    ⟨hanswer.1.1, watched_of_reading rfl rfl hs hanswer⟩

theorem harmless_parent {parent : String} (h : Writable targets home path)
    (hparent : Path.parent? path = some parent) (hne : parent ≠ "") :
  (Request.file (.makeDirectories parent)).Harmless targets home
  := by
  apply Request.harmless_makeDirectories
  intro file hfile hpasses
  apply h.aside file hfile
  apply passes_of_parent? hparent hne hpasses

theorem harmless_makeParent (h : Writable targets home path) :
  (makeParent path).Asks (Request.Harmless targets home)
  := asks_makeParent fun _ => harmless_parent h

theorem harmless_save {json : Json} (h : Writable targets home path) :
  (save path json).Asks (Request.Harmless targets home)
  := asks_save (fun _ => harmless_parent h) fun _ => Request.harmless_write h

end Store

/-- The settings of a directory on a disk. -/
def Settings.found? (d : Disk) (directory : String) : Option Settings :=
  let path := Path.join directory fileName
  if d.isPresent path then (d.readText path).toOption.bind parse? else some {}

/-- Settings that are loaded are the ones of the directory. -/
theorem Settings.safekeeps_load {directory : String} (hs : Secured targets text home s.2) :
  Safekeeps targets text home tested
    (fun result s' => Steady s s'
      ∧ ∀ settings, result = .ok settings → found? s.2 directory = some settings)
    (load directory) s
  := by
  rw [load]
  apply safekeeps_reading rfl rfl hs
  intro a s₁ hsteady hpresent
  obtain ⟨-, hpresent⟩ := World.isPresent_of_hazardous hpresent
  cases a with
  | false =>
    rintro _ rfl
    use hsteady
    rintro _ ⟨⟩
    rw [found?, ← hpresent]
    rfl
  | true =>
    apply safekeeps_reading rfl rfl (hsteady.abides hs).secured
    intro a s₂ hsteady' hread
    obtain ⟨-, htext⟩ := hread.1.readText
    rw [hsteady.disk] at htext
    have hsteady := hsteady.trans hsteady'
    cases a with
    | error e =>
      rintro _ rfl
      use hsteady
      simp
    | ok text =>
      have hfound : found? s.2 directory = parse? text := by
        rw [found?, ← hpresent, htext text rfl]
        rfl
      dsimp only
      split
      · next settings hparse =>
        rintro _ rfl
        use hsteady
        rintro _ ⟨⟩
        rw [hfound, hparse]
      · rintro _ rfl
        use hsteady
        simp

namespace CommandLine

open Command

variable {parser : Parser} {catalog id : String} {output : Option String}

theorem asks_say {message : Message} :
  (say message).run.Asks (Request.Harmless targets home)
  := Command.asks_say (Request.harmless_of_isReading rfl rfl)

theorem asks_say_then {α : Type} {message : Message} {value : α} :
  (do
    say message
    return value : Command α).run.Asks (Request.Harmless targets home)
  := asks_bind asks_say fun _ => Asks.pure _

theorem asks_writeOrPrint {content : String}
    (h : ∀ path ∈ output, Writable targets home path) :
  (writeOrPrint output content).run.Asks (Request.Harmless targets home)
  := by
  cases output with
  | none => apply asks_say
  | some path =>
    have hpath := h path rfl
    apply asks_bind
    · apply asks_attempt (Store.harmless_makeParent hpath)
    · intro _
      apply asks_attempt
      exact ⟨Request.harmless_write hpath, fun _ => trivial⟩

/-- Listing the mutations of a file keeps the targets. -/
theorem asks_generateCommand {file : String} {function lines : Option String}
    (h : ∀ path ∈ output, Writable targets home path) :
  (generateCommand parser file function lines output).run.Asks (Request.Harmless targets home)
  := by
  rw [generateCommand]
  apply asks_bind
  · cases lineRange lines <;> trivial
  intro range
  apply asks_bind
  · apply asks_attempt
    rw [generate]
    split
    · trivial
    · refine Asks.request (Request.harmless_of_isReading rfl rfl) fun a => ?_
      cases a <;> trivial
  · intro mutations
    cases output with
    | none => exact asks_bind asks_say fun _ => asks_say_then
    | some path =>
      apply asks_bind
      · apply asks_attempt (Store.harmless_save (h path rfl))
      · exact fun _ => asks_say_then

/-- Making a mutation keeps the targets, as it is stored elsewhere. -/
theorem asks_applyCommand {verify : Bool} (h : ∀ path ∈ output, Writable targets home path) :
  (applyCommand parser catalog id output verify).run.Asks (Request.Harmless targets home)
  := by
  have hread : ∀ path, (Procedure.readText path).Asks (Request.Harmless targets home) :=
    fun path => ⟨Request.harmless_of_isReading rfl rfl, fun _ => trivial⟩
  rw [applyCommand]
  apply asks_bind
  · rw [loadMutation]
    apply asks_bind
    · apply asks_attempt
      refine Asks.request (Request.harmless_of_isReading rfl rfl) fun a => ?_
      cases a with
      | error e => trivial
      | ok text =>
        dsimp only
        split <;> trivial
    · exact fun _ => asks_attempt (Asks.pure _)
  intro m
  apply asks_bind
  · apply asks_attempt (hread m.file)
  intro source
  apply asks_bind
  · exact asks_attempt (Asks.pure _)
  intro mutated
  have hend : (do
      writeOrPrint output mutated
      if output.isSome then say (Console.success · s!"{m.id}: {m.description}")
      return 0 : Command Nat).run.Asks (Request.Harmless targets home) := by
    apply asks_bind (asks_writeOrPrint h)
    intro _
    cases output with
    | none => trivial
    | some path => apply asks_say_then
  cases verify with
  | false => apply hend
  | true =>
    simp only [if_true]
    cases m.verify parser mutated with
    | ok => apply hend
    | error e => apply asks_bind asks_say fun _ => hend

/-! ### Commands that work on files -/

/-- A file is restored from its backup where it has one, before something else is done. -/
theorem safekeeps_interrupted {α : Type} {f : Option String → Command α} {c : Command α}
    {post : Except Failure α → List Event × Disk → Prop} (hwork : Workable targets home file)
    (hnone : ∀ s', Abides targets text home s s' → s'.2.isPresent (Backup.path file) = false →
      Safekeeps targets text home tested post (f none).run s')
    (hsome : f (some (Backup.path file)) = do restoreFrom file (Backup.path file); c)
    (hfailed : ∀ e s', Abides targets text home s s' → post (.error e) s')
    (hrestored : ∀ s', Abides targets text home s s' →
      Safekeeps targets text home tested post c.run s')
    (hs : Secured targets text home s.2) :
  Safekeeps targets text home tested post
    (liftM (Backup.interrupted? file) >>= f : Command α).run s
  := by
  rw [run_lift_bind, Backup.interrupted?, Procedure.bind_assoc]
  apply safekeeps_reading rfl rfl hs
  intro a s₁ hsteady hpresent
  obtain ⟨-, rfl⟩ := World.isPresent_of_hazardous hpresent
  have habides := hsteady.abides hs
  rw [← hsteady.disk]
  cases hpath : s₁.2.isPresent (Backup.path file) with
  | false => apply hnone s₁ habides hpath
  | true =>
    change Safekeeps targets text home tested _ (f (some (Backup.path file))).run s₁
    rw [hsome]
    apply ensures_bind
    apply ensures_attempt
    have hrestore : Safekeeps targets text home tested
        (fun _ s' => Abides targets text home s₁ s' ∧ (file ∈ targets → True))
        (Backup.restore file (Backup.path file)) s₁ := by
      apply safekeeps_of_watched file (fun _ => False) (fun _ _ => True)
        (Backup.regards_restore hwork) _ (fun h => h.elim) habides.secured
      intro _ hsafe
      apply (Backup.ensures_restore (hsafe.held hpath)).logged.mono
      exact fun _ _ hsettled => ⟨hsettled.safe, trivial⟩
    apply hrestore.mono
    rintro (e | _) s₂ ⟨habides', -⟩
    · apply hfailed _ s₂ (habides.trans habides')
    · apply hrestored s₂ (habides.trans habides')

theorem safekeeps_restoreCommand (hwork : Workable targets home file)
    (hs : Secured targets text home s.2) :
  Safekeeps targets text home tested (fun _ s' => Abides targets text home s s')
    (restoreCommand file).run s
  := by
  rw [restoreCommand]
  apply safekeeps_interrupted hwork _ rfl (fun _ _ => id) _ hs
  · exact fun s' habides _ => habides.safekeeps asks_say_then
  · exact fun s' habides => habides.safekeeps asks_say_then

/-- A file that did not have to be recovered has no backup. -/
theorem safekeeps_recoverInterrupted (hwork : Workable targets home file)
    (hs : Secured targets text home s.2) :
  Safekeeps targets text home tested
    (fun result s' => Abides targets text home s s'
      ∧ (result = .ok false → s'.2.isPresent (Backup.path file) = false))
    (recoverInterrupted file).run s
  := by
  rw [recoverInterrupted]
  apply safekeeps_interrupted hwork _ rfl _ _ hs
  · rintro s' habides habsent _ rfl
    use habides
    exact fun _ => habsent
  · intro e s' habides
    use habides
    rintro ⟨⟩
  · intro s' habides
    apply ensures_bind
    apply (habides.safekeeps asks_say).mono
    rintro (e | _) s'' habides
    · use habides
      rintro ⟨⟩
    · rintro _ rfl
      use habides
      rintro ⟨⟩

theorem safekeeps_recoverFirst {files : List String}
    (hwork : ∀ file ∈ files, Workable targets home file) (hs : Secured targets text home s.2) :
  Safekeeps targets text home tested (fun _ s' => Abides targets text home s s')
    (recoverFirst files).run s
  := by
  induction files generalizing s with
  | nil =>
    rintro _ rfl
    exact ⟨hs, rfl⟩
  | cons file files ih =>
    rw [recoverFirst]
    apply ensures_bind
    apply (safekeeps_recoverInterrupted (hwork file List.mem_cons_self) hs).mono
    rintro (e | recovered) s₁ ⟨habides, -⟩
    · apply habides
    · cases recovered with
      | true =>
        rintro _ rfl
        apply habides
      | false =>
        apply (ih _ habides.secured).mono
        · intro _ s₂
          apply habides.trans
        · intro other hother
          apply hwork other (List.mem_cons_of_mem file hother)

/-- The mutation that is loaded is the first one with the id in the catalog. -/
theorem ensures_loadMutation {σ : Type} {w : World σ} (disk : σ → Disk)
    {step : σ → Event → σ → Prop} {kept : σ → Prop} {s : σ}
    (hread : ∀ a s', w (.file (.readText catalog)) s a s' →
      (disk s).Yields (.readText catalog) a (disk s')
        ∧ step s ⟨.file (.readText catalog), a⟩ s' ∧ kept s') :
  Ensures w Eq step
    (fun result s' => kept s' ∧ ∀ m, result = .ok m → ∃ mutations,
      Store.catalog? (disk s) catalog = some mutations ∧ Store.findMutation mutations id = .ok m)
    (loadMutation catalog id).run s
  := by
  rw [loadMutation]
  apply ensures_bind
  apply ensures_attempt
  apply (Store.ensures_loadCatalog disk hread).mono
  rintro (e | mutations) s₁ ⟨hkept, hcatalog⟩
  · use hkept
    simp
  · apply ensures_attempt
    rintro _ rfl
    use hkept
    intro m hm
    use mutations, hcatalog mutations rfl
    cases hfind : Store.findMutation mutations id with
    | error e =>
      rw [hfind] at hm
      cases hm
    | ok m' =>
      rw [hfind] at hm
      cases hm
      rfl

/-- The targets are kept while a mutation is loaded. -/
theorem safekeeps_loadMutation (hs : Secured targets text home s.2) :
  Safekeeps targets text home tested
    (fun result s' => Steady s s' ∧ ∀ m, result = .ok m → ∃ mutations,
      Store.catalog? s.2 catalog = some mutations ∧ Store.findMutation mutations id = .ok m)
    (loadMutation catalog id).run s
  := ensures_loadMutation Prod.snd fun _ _ hanswer =>
    ⟨hanswer.1.1, watched_of_reading rfl rfl hs hanswer⟩

/-- Running a cycle keeps the targets, and the mutation of the catalog is tested only while it
stands. If this succeeds, the file of the mutation is as it should be. -/
theorem safekeeps_testCommand {settings : Settings} {workdir : Option String}
    (hcatalog : ∀ mutations, Store.catalog? s.2 catalog = some mutations →
      ∀ m ∈ mutations, Workable targets home m.file)
    (houtput : ∀ path ∈ output, Writable targets home path)
    (htested : ∀ mutations m, Store.catalog? s.2 catalog = some mutations →
      Store.findMutation mutations id = .ok m → ∀ s',
        (m.file ∈ targets → m.Stands parser (text m.file) s'.2) → tested s')
    (hs : Secured targets text home s.2) :
  Safekeeps targets text home tested
    (fun result s' => Secured targets text home s'.2 ∧ (result = .ok 0 →
      ∃ mutations m, Store.catalog? s.2 catalog = some mutations
        ∧ Store.findMutation mutations id = .ok m
        ∧ (m.file ∈ targets → Intact m.file (text m.file) s'.2)))
    (testCommand parser settings catalog id output workdir).run s
  := by
  have hfailed : ∀ {e s'} {Q : Prop}, Abides targets text home s s' →
      Secured targets text home s'.2 ∧ ((Except.error e : Except Failure Nat) = .ok 0 → Q) :=
    fun habides => ⟨habides.secured, by rintro ⟨⟩⟩
  rw [testCommand]
  apply ensures_bind
  apply (safekeeps_loadMutation hs).mono
  rintro (e | m) s₁ ⟨hsteady, hloaded⟩
  · apply hfailed (hsteady.abides hs)
  · obtain ⟨mutations, hmutations, hfind⟩ := hloaded m rfl
    have hwork := hcatalog mutations hmutations m (Store.mem_of_findMutation hfind)
    apply ensures_bind
    apply (safekeeps_recoverInterrupted hwork (hsteady.abides hs).secured).mono
    rintro (e | recovered) s₂ ⟨habides, habsent⟩
    · apply hfailed ((hsteady.abides hs).trans habides)
    · have habides := (hsteady.abides hs).trans habides
      cases recovered with
      | true =>
        rintro _ rfl
        exact ⟨habides.secured, by rintro ⟨⟩⟩
      | false =>
        have hintact : m.file ∈ targets → Intact m.file (text m.file) s₂.2 := fun htarget =>
          (habides.secured m.file htarget).intact (habsent rfl)
        apply ensures_bind
        cases chooseTestCommand settings [m] workdir with
        | error e =>
          rintro _ rfl
          apply hfailed habides
        | ok command =>
          rintro _ rfl
          apply ensures_bind
          apply ensures_lift
          apply (safekeeps_cycleWith hwork (fun s' _ => htested mutations m hmutations hfind s')
            habides.secured).mono
          rintro ⟨ending, states⟩ s₃ ⟨habides', hfinished⟩
          have habides := habides.trans habides'
          cases ending with
          | unrestored failure =>
            rintro _ rfl
            apply hfailed habides
          | brokenDown message =>
            rintro _ rfl
            apply hfailed habides
          | finished result =>
            apply (safekeeps_sparing _ habides.secured).mono
            · rintro _ s₄ ⟨habides', hspared⟩
              use habides'.secured
              intro _
              use mutations, m, hmutations, hfind
              intro htarget
              apply (hspared m.file htarget).intact_iff.mpr
              apply hfinished htarget ⟨result, rfl⟩ (hintact htarget)
            · cases output with
              | none => exact asks_bind asks_say fun _ => asks_say_then
              | some path =>
                apply asks_bind
                · apply asks_attempt (Store.harmless_save (houtput path rfl))
                · exact fun _ => asks_say_then

end CommandLine

end MutationTesting
