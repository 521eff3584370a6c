import MutationTesting.Proofs.Batch.Rounds
import MutationTesting.Proofs.Safekeeping.Commands

/-!
# Batches keep the targets

A batch comes to its cycles one after the other, and in each of them it tests the mutation whose
turn it is, by the `rounds` that there have been.
-/

namespace MutationTesting

open Disk Procedure

variable {targets : Set String} {text : String → String} {home : Location}
  {tested : List Event × Disk → Prop} {s s' : List Event × Disk} {parser : Parser}
  {command : TestCommand} {options : BatchOptions}

/-- Harmless requests do not ask the test oracle. -/
theorem withOracle_of_harmless {α : Type} {p : Procedure α}
    {oracle : String → Duration → Procedure (Except String Outcome)}
    (h : p.Asks (Request.Harmless targets home)) :
  p.withOracle oracle = p
  := by
  apply withOracle_of_asks
  apply h.mono
  intro request hharmless
  cases request with
  | consult => cases hharmless.trial
  | file | launch | isInterrupted | clock | print => rfl

namespace Batch

/-- A cycle of a batch keeps the targets, and so does the storing of its result. -/
theorem safekeeps_runOne {m : Mutation} (hisolation : options.isolation = .inProcess)
    (hwork : Workable targets home m.file)
    (hresult : Writable targets home (Store.resultPath options.outputDir m.id))
    (htested : ∀ s', rounds s'.1 = rounds s.1 →
      (m.file ∈ targets → m.Stands parser (text m.file) s'.2) → tested s')
    (hs : Secured targets text home s.2) :
  Safekeeps targets text home tested (fun _ s' => Abides targets text home s s')
    ((runOne parser m options).withOracle command.oracle) s
  := by
  rw [runOne_of_inProcess hisolation]
  -- Which path it is makes no difference, and a variable keeps its text from being computed.
  generalize Store.resultPath options.outputDir m.id = path at hresult
  rw [withOracle_bind]
  apply Ensures.bind (fun _ => rfl)
  apply (CommandLine.safekeeps_cycleWith hwork htested hs).mono
  rintro run s₁ ⟨habides, -⟩
  cases run.ending with
  | finished result =>
    have hasks : (do
        let _ ← Store.saveResult path result
        return CycleEnd.finished result).Asks (Request.Harmless targets home) :=
      (Store.harmless_save hresult).bind fun _ => Asks.pure _
    dsimp only
    rw [withOracle_of_harmless hasks]
    apply habides.safekeeps hasks
  | unrestored failure => apply habides.safekeeps (Asks.pure _)
  | brokenDown message => apply habides.safekeeps (Asks.pure _)

/-- To ask whether there is an interruption keeps the targets, and begins a round. -/
theorem safekeeps_check {α : Type} {f : Bool → Procedure α}
    {post : α → List Event × Disk → Prop} (hs : Secured targets text home s.2)
    (hrest : ∀ a s', Secured targets text home s'.2 → rounds s'.1 = rounds s.1 + 1 →
      Safekeeps targets text home tested post (f a) s') :
  Safekeeps targets text home tested post (Procedure.isInterrupted >>= f) s
  := by
  apply Ensures.request
  rintro _ rfl a s' ⟨hd, hlog, -⟩
  have hs' : Secured targets text home s'.2 := by
    have hd : s'.2 = s.2 := hd
    rw [hd]
    apply hs
  constructor
  · use fun _ => hs'
    intro htrial
    cases htrial
  · apply hrest a s' hs'
    rw [hlog]
    simp [Request.isCheck]

/-- A batch keeps the targets and tests each of its mutations only in its turn. -/
theorem safekeeps_runEach {selected rest : List Mutation} {total done : Nat}
    (hisolation : options.isolation = .inProcess)
    (hselected : ∀ m ∈ selected, Workable targets home m.file
      ∧ Writable targets home (Store.resultPath options.outputDir m.id))
    (htested : ∀ i m, selected[i]? = some m → ∀ s', rounds s'.1 = i + 1 →
      (m.file ∈ targets → m.Stands parser (text m.file) s'.2) → tested s')
    (hrest : selected.drop done = rest) (hrounds : rounds s.1 = done)
    (hs : Secured targets text home s.2) :
  Safekeeps targets text home tested (fun _ s' => Secured targets text home s'.2)
    ((runEach parser options total done rest).withOracle command.oracle) s
  := by
  induction rest generalizing done s with
  | nil =>
    rw [runEach, withOracle_bind]
    apply safekeeps_check hs
    rintro _ s₁ hs₁ - _ rfl
    apply hs₁
  | cons m rest ih =>
    obtain ⟨hm, hdrop⟩ := getElem?_of_drop hrest
    obtain ⟨hwork, hresult⟩ := hselected m (List.mem_of_getElem? hm)
    have hfind : (LockKey.find m.file).Asks (Request.Harmless targets home) :=
      asks_find (Request.harmless_of_isReading rfl rfl)
    have hshow : ∀ result,
        (showProgress options (done + 1) total m result).Asks (Request.Harmless targets home) :=
      fun _ => asks_showProgress fun _ => Request.harmless_of_isReading rfl rfl
    rw [runEach, withOracle_bind]
    apply safekeeps_check hs
    intro a s₁ hs₁ hround
    rw [hrounds] at hround
    cases a with
    | true =>
      rintro _ rfl
      apply hs₁
    | false =>
      simp only [Bool.false_eq_true, if_false]
      rw [withOracle_bind, withOracle_of_harmless hfind]
      apply Ensures.bind (fun _ => rfl)
      apply (safekeeps_of_harmless hfind hs₁).mono
      intro _ s₂ hfound
      rw [withOracle_bind]
      apply Ensures.bind (fun _ => rfl)
      apply (safekeeps_runOne hisolation hwork hresult _ hfound.secured).mono
      · intro ending s₃ hran
        cases ending with
        | unrestored failure =>
          rintro _ rfl
          apply hran.secured
        | brokenDown message =>
          rintro _ rfl
          apply hran.secured
        | finished result =>
          dsimp only
          rw [withOracle_bind, withOracle_of_harmless (hshow result)]
          apply Ensures.bind (fun _ => rfl)
          apply (hran.safekeeps (hshow result)).mono
          intro _ s₄ hshown
          rw [withOracle_bind]
          apply Ensures.bind (fun _ => rfl)
          apply (ih hdrop ((hfound.trans hshown).rounds.trans hround) hshown.secured).mono
          rintro _ s₅ hs₅ _ rfl
          apply hs₅
      · intro s' hs'
        apply htested done m hm s' ((hs'.trans hfound.rounds).trans hround)

end Batch

namespace CommandLine

open Command

/-- A batch with a test command keeps the targets. -/
theorem safekeeps_batchWith {selected : List Mutation}
    (hisolation : options.isolation = .inProcess)
    (hselected : ∀ m ∈ selected, Workable targets home m.file
      ∧ Writable targets home (Store.resultPath options.outputDir m.id))
    (hdirectory : Writable targets home options.outputDir)
    (htested : ∀ i m, selected[i]? = some m → ∀ s', rounds s'.1 = i + 1 →
      (m.file ∈ targets → m.Stands parser (text m.file) s'.2) → tested s')
    (hrounds : rounds s.1 = 0) (hs : Secured targets text home s.2) :
  Safekeeps targets text home tested (fun _ s' => Secured targets text home s'.2)
    (batchWith parser command selected options) s
  := by
  have hclock : Procedure.clock.Asks (Request.Harmless targets home) :=
    ⟨Request.harmless_of_isReading rfl rfl, fun _ => trivial⟩
  have hmake : (Procedure.makeDirectories options.outputDir).Asks
      (Request.Harmless targets home) :=
    ⟨Request.harmless_makeDirectories hdirectory.aside, fun _ => trivial⟩
  have hconcurrency : (Batch.effectiveConcurrency options.maxConcurrency).Asks
      (Request.Harmless targets home) :=
    Batch.asks_effectiveConcurrency fun _ => Request.harmless_of_isReading rfl rfl
  rw [batchWith, Batch.run, withOracle_bind, withOracle_of_harmless hmake]
  apply Ensures.bind (fun _ => rfl)
  apply (safekeeps_of_harmless hmake hs).mono
  rintro (e | _) s₁ habides
  · rintro _ rfl
    apply habides.secured
  · dsimp only
    rw [withOracle_bind, withOracle_of_harmless hconcurrency]
    apply Ensures.bind (fun _ => rfl)
    apply (habides.safekeeps hconcurrency).mono
    intro _ s₂ habides
    rw [withOracle_bind, withOracle_of_harmless hclock]
    apply Ensures.bind (fun _ => rfl)
    apply (habides.safekeeps hclock).mono
    intro _ s₃ habides
    rw [withOracle_bind]
    apply Ensures.bind (fun _ => rfl)
    rw [Batch.runAll_eq]
    apply (Batch.safekeeps_runEach hisolation hselected htested List.drop_zero
      (habides.rounds.trans hrounds) habides.secured).mono
    intro result s₄ hs₄
    cases result with
    | error stop =>
      cases stop <;>
      · rintro _ rfl
        apply hs₄
    | ok results =>
      dsimp only
      rw [withOracle_bind]
      apply safekeeps_reading rfl rfl hs₄
      rintro stop s₅ hsteady - _ rfl
      apply (hsteady.abides hs₄).secured

/-- What a batch says when it has ended changes nothing. -/
theorem safekeeps_runBatch {selected : List Mutation} (hisolation : options.isolation = .inProcess)
    (hselected : ∀ m ∈ selected, Workable targets home m.file
      ∧ Writable targets home (Store.resultPath options.outputDir m.id))
    (hdirectory : Writable targets home options.outputDir)
    (htested : ∀ i m, selected[i]? = some m → ∀ s', rounds s'.1 = i + 1 →
      (m.file ∈ targets → m.Stands parser (text m.file) s'.2) → tested s')
    (hrounds : rounds s.1 = 0) (hs : Secured targets text home s.2) :
  Safekeeps targets text home tested (fun _ s' => Secured targets text home s'.2)
    (runBatch parser selected command options).run s
  := by
  rw [runBatch]
  apply ensures_bind
  apply ensures_lift
  apply (safekeeps_batchWith hisolation hselected hdirectory htested hrounds hs).mono
  intro ending s₁ hs₁
  apply (safekeeps_of_harmless _ hs₁).mono
  · exact fun _ _ habides => habides.secured
  · cases ending with
    | unprepared path cause => trivial
    | unrestored failure => trivial
    | brokenDown message => trivial
    | finished outcome =>
      apply asks_bind asks_say
      intro _
      apply asks_bind asks_say
      intro _
      split
      · apply asks_say_then
      · trivial

/-- The files of some mutations are files of these. -/
theorem exists_of_mem_filesOf {mutations : List Mutation} {file : String}
    (h : file ∈ filesOf mutations) :
  ∃ m ∈ mutations, m.file = file
  := by
  have hmem : ∀ {files : List String}, file ∈ files.foldr (fun file rest =>
      if rest.head?.any fun next => (Path.compare file next).isEq then file :: rest.tail
      else file :: rest) [] → file ∈ files := by
    intro files h
    induction files with
    | nil => cases h
    | cons first files ih =>
      rw [List.foldr_cons] at h
      split at h
      · obtain rfl | h := List.mem_cons.mp h
        · apply List.mem_cons_self
        · apply List.mem_cons_of_mem _ (ih (List.mem_of_mem_tail h))
      · obtain rfl | h := List.mem_cons.mp h
        · apply List.mem_cons_self
        · apply List.mem_cons_of_mem _ (ih h)
  apply List.mem_map.mp
  apply (List.mem_mergeSort).mp (hmem h)

/-- Running a batch keeps the targets, and each of its mutations is tested only in its turn and
while it stands. -/
theorem safekeeps_batchCommand {settings : Settings} {args : BatchArgs}
    (hisolated : args.isolated = false) (hdirectory : Writable targets home args.outputDir)
    (hcatalog : ∀ mutations, Store.catalog? s.2 args.catalog = some mutations →
      ∀ m ∈ mutations, Workable targets home m.file
        ∧ Writable targets home (Store.resultPath args.outputDir m.id))
    (htested : ∀ mutations, Store.catalog? s.2 args.catalog = some mutations → ∀ i m,
      ((Filter.ofSettings settings).select mutations)[i]? = some m → ∀ s', rounds s'.1 = i + 1 →
        (m.file ∈ targets → m.Stands parser (text m.file) s'.2) → tested s')
    (hrounds : rounds s.1 = 0) (hs : Secured targets text home s.2) :
  Safekeeps targets text home tested (fun _ s' => Secured targets text home s'.2)
    (batchCommand parser settings args).run s
  := by
  rw [batchCommand]
  apply ensures_bind
  apply ensures_attempt
  apply (Store.safekeeps_loadCatalog hs).mono
  rintro (e | mutations) s₁ ⟨hsteady, hmutations⟩
  · apply (hsteady.abides hs).secured
  · have hmutations := hmutations mutations rfl
    have habides := hsteady.abides hs
    have hselected : ∀ m ∈ (Filter.ofSettings settings).select mutations,
        Workable targets home m.file
          ∧ Writable targets home (Store.resultPath args.outputDir m.id) :=
      fun m hm => hcatalog mutations hmutations m (List.mem_of_mem_filter hm)
    apply ensures_bind
    apply (habides.safekeeps asks_say).mono
    rintro (e | _) s₂ habides
    · apply habides.secured
    · dsimp only
      split
      · apply (habides.safekeeps asks_say_then).mono
        exact fun _ _ habides => habides.secured
      · apply ensures_bind
        apply (safekeeps_recoverFirst _ habides.secured).mono
        · rintro (e | recovered) s₃ habides'
          · apply habides'.secured
          · have habides := habides.trans habides'
            cases recovered with
            | true =>
              rintro _ rfl
              apply habides.secured
            | false =>
              simp only [Bool.false_eq_true, if_false]
              apply ensures_bind
              cases chooseTestCommand settings ((Filter.ofSettings settings).select mutations)
                args.oracle.workdir with
              | error e =>
                rintro _ rfl
                apply habides.secured
              | ok command =>
                rintro _ rfl
                refine safekeeps_runBatch ?_ hselected hdirectory (htested mutations hmutations)
                  (habides.rounds.trans hrounds) habides.secured
                simp [isolationOf, hisolated]
        · intro file hfile
          obtain ⟨m, hm, rfl⟩ := exists_of_mem_filesOf hfile
          apply (hselected m hm).1

end CommandLine

end MutationTesting
