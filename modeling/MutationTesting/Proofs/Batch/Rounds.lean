import MutationTesting.Proofs.Batch.Worker
import MutationTesting.Proofs.Store

/-!
# The turns of a batch

A batch `Batch.Proceeds` by making the directory for its results and giving each mutation one of
the `Batch.Turns`. It `Batch.Ends` them with the first one that does not come to a result, and
`Batch.Concludes` with what has come of them. If it runs in its own process, its turns are
`Batch.Cycles`, and it makes only requests of `Batch.Between` before, between and after them.
-/

namespace MutationTesting.Batch

open Procedure

variable {σ : Type} {w : World σ} {parser : Parser} {options : BatchOptions}
  {all mutations : List Mutation} {cycles turns : List (Mutation × CycleEnd)}
  {events part : List Event} {s s₁ s₂ : σ}

/-- What a batch asks for between its turns. -/
inductive Idle : Request → Prop where
  | isInterrupted : Idle .isInterrupted
  | clock : Idle .clock
  | print {message : Message} : Idle (.print message)
  | identify {path : String} : Idle (.file (.identify path))

/-- Mutations have their turns, which end somehow, with what may be done between them. -/
inductive Turns (w : World σ) (parser : Parser) (options : BatchOptions) :
    List (Mutation × CycleEnd) → σ → List Event → σ → Prop where
  | nil {s : σ} : Turns w parser options [] s [] s
  | idle {turns : List (Mutation × CycleEnd)} {request : Request} {a : request.Answer}
      {events : List Event} {s s₁ s₂ : σ} : Idle request → w request s a s₁ →
      Turns w parser options turns s₁ events s₂ →
      Turns w parser options turns s (⟨request, a⟩ :: events) s₂
  | turn {m : Mutation} {ending : CycleEnd} {turns : List (Mutation × CycleEnd)}
      {during events : List Event} {s s₁ s₂ : σ} :
      Runs w (runOne parser m options) s during ending s₁ →
      Turns w parser options turns s₁ events s₂ →
      Turns w parser options ((m, ending) :: turns) s (during ++ events) s₂

/-- A batch makes the directory for its results, and if it can, mutations have their turns. -/
inductive Proceeds (w : World σ) (parser : Parser) (options : BatchOptions) :
    List (Mutation × CycleEnd) → σ → List Event → σ → Prop where
  | unprepared {e : FileError} {s s₁ : σ} :
      w (.file (.makeDirectories options.outputDir)) s (.error e) s₁ →
      Proceeds w parser options [] s [⟨.file (.makeDirectories options.outputDir), .error e⟩] s₁
  | prepared {turns : List (Mutation × CycleEnd)} {events : List Event} {s s₁ s₂ : σ} :
      w (.file (.makeDirectories options.outputDir)) s (.ok ()) s₁ →
      Turns w parser options turns s₁ events s₂ →
      Proceeds w parser options turns s
        (⟨.file (.makeDirectories options.outputDir), .ok ()⟩ :: events) s₂

/-- What a batch asks for outside of its cycles. -/
inductive Between (all : List Mutation) (outputDir : String) : Request → Prop where
  | prepare : Between all outputDir (.file (.makeDirectories outputDir))
  | makeParent {m : Mutation} {parent : String} : m ∈ all →
      Path.parent? (Store.resultPath outputDir m.id) = some parent → parent ≠ "" →
      Between all outputDir (.file (.makeDirectories parent))
  | write {m : Mutation} {text : String} : m ∈ all →
      Between all outputDir (.file (.write (Store.resultPath outputDir m.id) text))
  | isInterrupted : Between all outputDir .isInterrupted
  | clock : Between all outputDir .clock
  | print {message : Message} : Between all outputDir (.print message)
  | identify {path : String} : Between all outputDir (.file (.identify path))

/-- Cycles of mutations with their ends, and what may be done between them. -/
inductive Cycles (w : World σ) (parser : Parser) (options : BatchOptions) (all : List Mutation) :
    List (Mutation × CycleEnd) → σ → List Event → σ → Prop where
  | nil {s : σ} : Cycles w parser options all [] s [] s
  | between {cycles : List (Mutation × CycleEnd)} {request : Request} {a : request.Answer}
      {events : List Event} {s s₁ s₂ : σ} : Between all options.outputDir request →
      w request s a s₁ → Cycles w parser options all cycles s₁ events s₂ →
      Cycles w parser options all cycles s (⟨request, a⟩ :: events) s₂
  | cycle {m : Mutation} {cycles : List (Mutation × CycleEnd)} {run : CycleRun}
      {during events : List Event} {s s₁ s₂ : σ} :
      Runs w (Cycle.run parser m options.cycle) s during run s₁ →
      Cycles w parser options all cycles s₁ events s₂ →
      Cycles w parser options all ((m, run.ending) :: cycles) s (during ++ events) s₂

/-- The cycles of a batch on some mutations, and what comes of them. Only an interruption keeps a
mutation from having its cycle after cycles that came to results. -/
inductive Ends (interrupted : Prop) :
    List Mutation → List (Mutation × CycleEnd) → Except Stop (List TestResult) → Prop where
  | nil : Ends interrupted [] [] (.ok [])
  | interrupted {mutations : List Mutation} : interrupted → Ends interrupted mutations [] (.ok [])
  | unrestored {m : Mutation} {mutations : List Mutation} {failure : RestoreFailure} :
      Ends interrupted (m :: mutations) [(m, .unrestored failure)] (.error (.unrestored failure))
  | brokenDown {m : Mutation} {mutations : List Mutation} {message : String} :
      Ends interrupted (m :: mutations) [(m, .brokenDown message)] (.error .brokenDown)
  | cons {m : Mutation} {mutations : List Mutation} {result : TestResult}
      {cycles : List (Mutation × CycleEnd)} {rest : Except Stop (List TestResult)} :
      Ends interrupted mutations cycles rest →
      Ends interrupted (m :: mutations) ((m, .finished result) :: cycles)
        (rest.map (result :: ·))

/-- How a batch ends after its cycles. -/
inductive Concludes (w : World σ) (outputDir : String) (mutations : List Mutation) (s : σ)
    (interrupted : Prop) : List (Mutation × CycleEnd) → BatchEnd → Prop where
  | unprepared {e : FileError} {s₁ : σ} : w (.file (.makeDirectories outputDir)) s (.error e) s₁ →
      Concludes w outputDir mutations s interrupted [] (.unprepared outputDir e)
  | unrestored {cycles : List (Mutation × CycleEnd)} {failure : RestoreFailure} :
      Ends interrupted mutations cycles (.error (.unrestored failure)) →
      Concludes w outputDir mutations s interrupted cycles (.unrestored failure)
  | brokenDown {cycles : List (Mutation × CycleEnd)} {message : String} :
      Ends interrupted mutations cycles (.error .brokenDown) →
      Concludes w outputDir mutations s interrupted cycles (.brokenDown message)
  | finished {cycles : List (Mutation × CycleEnd)} {outcome : BatchOutcome} {s₁ : σ} :
      w (.file (.makeDirectories outputDir)) s (.ok ()) s₁ →
      Ends interrupted mutations cycles (.ok outcome.results) →
      outcome.interrupted = decide (outcome.results.length < mutations.length) →
      Concludes w outputDir mutations s interrupted cycles (.finished outcome)

/-! ### The ends of cycles -/

namespace Ends

variable {interrupted interrupted' : Prop} {result : Except Stop (List TestResult)}
  {results : List TestResult} {m : Mutation} {failure : RestoreFailure}

theorem mono (h : Ends interrupted mutations cycles result) (hmono : interrupted → interrupted') :
  Ends interrupted' mutations cycles result
  := by
  induction h with
  | nil => apply nil
  | interrupted hinterrupted => apply Ends.interrupted (hmono hinterrupted)
  | unrestored => apply unrestored
  | brokenDown => apply brokenDown
  | cons _ ih => apply cons ih

/-- The first mutations have their cycles, in their order. -/
theorem map_fst_prefix (h : Ends interrupted mutations cycles result) :
  cycles.map (·.1) <+: mutations
  := by
  induction h with
  | nil => apply List.prefix_rfl
  | interrupted => apply List.nil_prefix
  | unrestored => simp
  | brokenDown => simp
  | cons _ ih => apply (List.prefix_cons_inj _).mpr ih

/-- A cycle that failed to restore its file is the last one, and its failure is what comes of the
cycles. -/
theorem eq_of_unrestored_mem (h : Ends interrupted mutations cycles result)
    (hmem : (m, .unrestored failure) ∈ cycles) :
  result = .error (.unrestored failure) ∧ cycles.getLast? = some (m, .unrestored failure)
  := by
  induction h with
  | nil => cases hmem
  | interrupted => cases hmem
  | unrestored =>
    cases List.mem_singleton.mp hmem
    use rfl
    rfl
  | brokenDown => cases List.mem_singleton.mp hmem
  | cons _ ih =>
    obtain hfirst | hmem := List.mem_cons.mp hmem
    · cases hfirst
    · obtain ⟨rfl, hlast⟩ := ih hmem
      use rfl
      rw [List.getLast?_cons, hlast]
      rfl

/-- What comes of the cycles without results for all is the end of one of them. -/
theorem exists_of_error {stop : Stop} (h : Ends interrupted mutations cycles (.error stop)) :
  ∃ m ending, (m, ending) ∈ cycles ∧ ∀ result, ending ≠ .finished result
  := by
  generalize hresult : Except.error stop = result at h
  induction h with
  | nil => cases hresult
  | interrupted => cases hresult
  | @unrestored m _ failure => exact ⟨m, .unrestored failure, List.mem_singleton_self _, by simp⟩
  | @brokenDown m _ message => exact ⟨m, .brokenDown message, List.mem_singleton_self _, by simp⟩
  | @cons _ _ _ _ rest _ ih =>
    cases rest with
    | error stop' =>
      cases hresult
      obtain ⟨m, ending, hmem, hending⟩ := ih rfl
      use m, ending, List.mem_cons_of_mem _ hmem
    | ok results => cases hresult

/-- The results of cycles are in the order of their mutations. -/
theorem eq_zip (h : Ends interrupted mutations cycles (.ok results)) :
  cycles = (mutations.zip results).map fun (m, result) => (m, .finished result)
  := by
  generalize hresult : Except.ok results = result at h
  induction h generalizing results with
  | nil =>
    cases hresult
    rfl
  | interrupted =>
    cases hresult
    rw [List.zip_nil_right]
    rfl
  | unrestored => cases hresult
  | brokenDown => cases hresult
  | @cons _ _ _ _ rest _ ih =>
    cases rest with
    | error stop => cases hresult
    | ok others =>
      cases hresult
      rw [ih rfl]
      rfl

/-- Cycles that come to results have ended with these. -/
theorem map_snd_eq (h : Ends interrupted mutations cycles (.ok results)) :
  cycles.map (·.2) = results.map .finished
  := by
  generalize hresult : Except.ok results = result at h
  induction h generalizing results with
  | nil | interrupted =>
    cases hresult
    rfl
  | unrestored | brokenDown => cases hresult
  | @cons _ _ _ _ rest _ ih =>
    cases rest with
    | error stop => cases hresult
    | ok others =>
      cases hresult
      rw [List.map_cons, List.map_cons, ih rfl]

/-- The mutations that have cycles which come to results are the first ones, one for each result. -/
theorem map_fst_eq_take (h : Ends interrupted mutations cycles (.ok results)) :
  cycles.map (·.1) = mutations.take results.length
  := by
  rw [h.eq_zip, List.map_map]
  generalize hresult : Except.ok results = result at h
  induction h generalizing results with
  | nil => simp
  | interrupted =>
    cases hresult
    simp
  | unrestored => cases hresult
  | brokenDown => cases hresult
  | @cons _ _ _ _ rest _ ih =>
    cases rest with
    | error stop => cases hresult
    | ok others =>
      cases hresult
      simpa using ih rfl

/-- Where there is no interruption and what the results of the cycles tell is what it should be for
each mutation, the results tell it in the order of the mutations. -/
theorem results_eq {α : Type} {tells : TestResult → α} {judge : Mutation → α}
    (h : Ends False mutations cycles (.ok results))
    (hjudge : ∀ m result, (m, .finished result) ∈ cycles → tells result = judge m) :
  results.map tells = mutations.map judge
  := by
  generalize hresult : Except.ok results = result at h
  induction h generalizing results with
  | nil =>
    cases hresult
    rfl
  | interrupted hfalse => cases hfalse
  | unrestored => cases hresult
  | brokenDown => cases hresult
  | @cons m _ result _ rest _ ih =>
    cases rest with
    | error stop => cases hresult
    | ok others =>
      cases hresult
      rw [List.map_cons, List.map_cons, hjudge m result List.mem_cons_self, ih _ rfl]
      exact fun m result hmem => hjudge m result (List.mem_cons_of_mem _ hmem)

/-- Where there is no interruption and the cycles come to results, they are those of all
mutations. -/
theorem map_fst_eq (h : Ends False mutations cycles (.ok results)) :
  cycles.map (·.1) = mutations
  := by
  have hlength : results.length = mutations.length := by
    have hunits : results.map (fun _ => ()) = mutations.map fun _ => () :=
      h.results_eq fun _ _ _ => rfl
    simpa using congrArg List.length hunits
  rw [h.map_fst_eq_take, List.take_of_length_le (Nat.le_of_eq hlength.symm)]

/-- Where there is no interruption and the cycles come to results, every mutation has one. -/
theorem exists_finished (h : Ends False mutations cycles (.ok results)) (hm : m ∈ mutations) :
  ∃ result, (m, .finished result) ∈ cycles
  := by
  generalize hresult : Except.ok results = result at h
  induction h generalizing results with
  | nil => cases hm
  | interrupted hfalse => cases hfalse
  | unrestored => cases hresult
  | brokenDown => cases hresult
  | @cons _ _ result _ rest _ ih =>
    cases rest with
    | error stop => cases hresult
    | ok others =>
      obtain rfl | hm := List.mem_cons.mp hm
      · use result, List.mem_cons_self
      · obtain ⟨result', hmem⟩ := ih hm rfl
        use result', List.mem_cons_of_mem _ hmem

end Ends

/-! ### The turns of a run -/

/-- Of the number of workers nothing is asked but to print. -/
theorem asks_effectiveConcurrency {requested : Nat} {Q : Request → Prop}
    (hprint : ∀ message, Q (.print message)) :
  (effectiveConcurrency requested).Asks Q
  := by
  rw [effectiveConcurrency]
  split
  · exact Asks.request (hprint _) fun _ => Asks.pure _
  · trivial

/-- To find the key of a file, nothing is asked but what its path leads to. -/
theorem asks_find {path : String} {Q : Request → Prop} (h : Q (.file (.identify path))) :
  (LockKey.find path).Asks Q
  := Asks.request h fun _ => Asks.pure _

/-- To show how far a batch has come, nothing is asked but to print. -/
theorem asks_showProgress {done total : Nat} {m : Mutation} {result : TestResult}
    {Q : Request → Prop} (hprint : ∀ message, Q (.print message)) :
  (showProgress options done total m result).Asks Q
  := by
  rw [showProgress]
  split
  · exact Asks.request (hprint _) fun _ => Asks.pure _
  · trivial

/-- What is done between turns may be done before them. -/
theorem Turns.of_asks {α : Type} {p : Procedure α} {a : α} (hp : p.Asks Idle)
    (hruns : Runs w p s part a s₁) (h : Turns w parser options turns s₁ events s₂) :
  Turns w parser options turns s (part ++ events) s₂
  := by
  induction p generalizing s part with
  | done value =>
    obtain ⟨rfl, -, rfl⟩ := runs_done_iff.mp hruns
    apply h
  | ask request next ih =>
    obtain ⟨a, s', rest, hanswer, hrest, rfl⟩ := runs_ask_iff.mp hruns
    apply idle hp.1 hanswer
    apply ih a (hp.2 a) hrest

/-- What is done between turns may be done after them. -/
theorem Turns.append {request : Request} {a : request.Answer} {s' : σ}
    (h : Turns w parser options turns s events s₁) (hidle : Idle request)
    (hanswer : w request s₁ a s') :
  Turns w parser options turns s (events ++ [⟨request, a⟩]) s'
  := by
  induction h with
  | nil => apply idle hidle hanswer nil
  | idle hfirst hfirst' _ ih => apply idle hfirst hfirst' (ih hanswer)
  | turn hturn _ ih =>
    rw [List.append_assoc]
    apply turn hturn (ih hanswer)

/-- A batch gives its mutations their turns one after the other, up to the first one that does not
come to a result. -/
theorem runs_runEach {total done : Nat} {result : Except Stop (List TestResult)}
    (h : Runs w (runEach parser options total done mutations) s events result s₂) :
  ∃ turns, Turns w parser options turns s events s₂
    ∧ Ends (⟨.isInterrupted, true⟩ ∈ events) mutations turns result
  := by
  induction mutations generalizing done s events result with
  | nil =>
    obtain ⟨a, s₁, rest, hasked, hrest, rfl⟩ := runs_request_iff.mp h
    obtain ⟨rfl, rfl, rfl⟩ := runs_pure_iff.mp hrest
    exact ⟨[], .idle .isInterrupted hasked .nil, .nil⟩
  | cons m mutations ih =>
    rw [runEach] at h
    obtain ⟨a, s₁, rest, hasked, hrest, rfl⟩ := runs_request_iff.mp h
    cases a with
    | true =>
      obtain ⟨rfl, rfl, rfl⟩ := runs_pure_iff.mp hrest
      exact ⟨[], .idle .isInterrupted hasked .nil, .interrupted (by simp)⟩
    | false =>
      simp only [Bool.false_eq_true, if_false] at hrest
      obtain ⟨finding, key, s', _, hfind, hlocked, rfl⟩ := runs_bind_iff.mp hrest
      obtain ⟨during, ending, s'', more, hone, hmore, rfl⟩ := runs_bind_iff.mp hlocked
      have hturn : ∀ {turns}, Turns w parser options turns s'' more s₂ →
          Turns w parser options ((m, ending) :: turns) s
            (⟨.isInterrupted, false⟩ :: (finding ++ (during ++ more))) s₂ := fun hturns =>
        .idle .isInterrupted hasked (.of_asks (asks_find .identify) hfind (.turn hone hturns))
      cases ending with
      | unrestored failure =>
        obtain ⟨rfl, rfl, rfl⟩ := runs_pure_iff.mp hmore
        exact ⟨_, hturn .nil, .unrestored⟩
      | brokenDown message =>
        obtain ⟨rfl, rfl, rfl⟩ := runs_pure_iff.mp hmore
        exact ⟨_, hturn .nil, .brokenDown⟩
      | finished result' =>
        dsimp only at hmore
        obtain ⟨showing, _, t, _, hshow, hnext, rfl⟩ := runs_bind_iff.mp hmore
        obtain ⟨before, others, t', _, hothers, hdone, rfl⟩ := runs_bind_iff.mp hnext
        obtain ⟨rfl, rfl, rfl⟩ := runs_pure_iff.mp hdone
        obtain ⟨turns, hturns, hends⟩ := ih hothers
        rw [List.append_nil] at hturn ⊢
        use (m, .finished result') :: turns
        use hturn (.of_asks (asks_showProgress fun _ => .print) hshow hturns)
        apply hends.cons.mono
        intro hmem
        simp [hmem]

/-- A batch makes the directory for its results, gives its mutations their turns, and ends as they
do. -/
theorem exists_turns {ending : BatchEnd}
    (h : Runs w (Batch.run parser mutations options) s events ending s₂) :
  ∃ turns, Proceeds w parser options turns s events s₂
    ∧ Concludes w options.outputDir mutations s (⟨.isInterrupted, true⟩ ∈ events) turns ending
  := by
  rw [Batch.run] at h
  obtain ⟨a, s₁, rest, hmake, hrest, rfl⟩ := runs_request_iff.mp h
  cases a with
  | error e =>
    obtain ⟨rfl, rfl, rfl⟩ := runs_pure_iff.mp hrest
    exact ⟨[], .unprepared hmake, .unprepared hmake⟩
  | ok =>
    dsimp only at hrest
    obtain ⟨warning, workers, s', _, hworkers, hcounted, rfl⟩ := runs_bind_iff.mp hrest
    obtain ⟨start, s'', _, hstart, hstarted, rfl⟩ := runs_request_iff.mp hcounted
    obtain ⟨during, result, s₃, after, hduring, hlast, rfl⟩ := runs_bind_iff.mp hstarted
    rw [runAll_eq] at hduring
    obtain ⟨turns, hturns, hends⟩ := runs_runEach hduring
    have hbegin : ∀ {events s₄}, Turns w parser options turns s'' events s₄ →
        Proceeds w parser options turns s (⟨.file (.makeDirectories options.outputDir),
          .ok ()⟩ :: (warning ++ ⟨.clock, start⟩ :: events)) s₄ := fun hturns =>
      .prepared hmake (Turns.of_asks (asks_effectiveConcurrency fun _ => .print) hworkers
        (.idle .clock hstart hturns))
    have hasked : ∀ {part : List Event}, during ⊆ part → ⟨.isInterrupted, true⟩ ∈ during →
        (⟨.isInterrupted, true⟩ : Event) ∈ ⟨.file (.makeDirectories options.outputDir),
          .ok ()⟩ :: (warning ++ ⟨.clock, start⟩ :: part) := by
      intro part hpart hmem
      simp [hpart hmem]
    use turns
    cases result with
    | error stop =>
      cases stop with
      | unrestored failure =>
        obtain ⟨rfl, rfl, rfl⟩ := runs_pure_iff.mp hlast
        rw [List.append_nil]
        use hbegin hturns
        apply Concludes.unrestored (hends.mono (hasked (List.Subset.refl during)))
      | brokenDown =>
        obtain ⟨rfl, rfl, rfl⟩ := runs_pure_iff.mp hlast
        rw [List.append_nil]
        use hbegin hturns
        apply Concludes.brokenDown (hends.mono (hasked (List.Subset.refl during)))
    | ok results =>
      obtain ⟨stop, s₄, _, hstop, hdone, rfl⟩ := runs_request_iff.mp hlast
      obtain ⟨rfl, rfl, rfl⟩ := runs_pure_iff.mp hdone
      use hbegin (hturns.append .clock hstop)
      apply Concludes.finished hmake (hends.mono (hasked (List.subset_append_left during _))) rfl

/-- A batch that finishes has made the directory for its results, and its turns have come to these. -/
theorem exists_turns_of_finished {outcome : BatchOutcome}
    (h : Runs w (Batch.run parser mutations options) s events (.finished outcome) s₂) :
  ∃ turns s₁ rest, w (.file (.makeDirectories options.outputDir)) s (.ok ()) s₁
    ∧ Turns w parser options turns s₁ rest s₂
    ∧ Ends (⟨.isInterrupted, true⟩ ∈ events) mutations turns (.ok outcome.results)
  := by
  obtain ⟨turns, hproceeds, hconcludes⟩ := exists_turns h
  cases hconcludes with | finished _ hends _ =>
  cases hproceeds with
  | unprepared =>
    rw [Batch.run] at h
    obtain ⟨_, _, _, -, hrest, ⟨⟩⟩ := runs_request_iff.mp h
    obtain ⟨-, ⟨⟩, -⟩ := runs_pure_iff.mp hrest
  | @prepared _ rest _ s₁ _ hmake hturns => exact ⟨turns, s₁, rest, hmake, hturns, hends⟩

/-- In a batch that finishes without an interruption every mutation has had its turn. -/
theorem exists_turns_of_complete {outcome : BatchOutcome}
    (h : Runs w (Batch.run parser mutations options) s events (.finished outcome) s₂)
    (hcomplete : outcome.interrupted = false) :
  ∃ turns s₁ rest, w (.file (.makeDirectories options.outputDir)) s (.ok ()) s₁
    ∧ Turns w parser options turns s₁ rest s₂
    ∧ turns.map (·.1) = mutations ∧ turns.map (·.2) = outcome.results.map .finished
  := by
  have hlength : mutations.length ≤ outcome.results.length := by
    obtain ⟨_, -, hconcludes⟩ := exists_turns h
    cases hconcludes with | finished _ _ hinterrupted =>
    rw [hcomplete, eq_comm, decide_eq_false_iff_not, Nat.not_lt] at hinterrupted
    apply hinterrupted
  obtain ⟨turns, s₁, rest, hmake, hturns, hends⟩ := exists_turns_of_finished h
  refine ⟨turns, s₁, rest, hmake, hturns, ?_, hends.map_snd_eq⟩
  rw [hends.map_fst_eq_take, List.take_of_length_le hlength]

/-! ### Turns in processes of their own -/

/-- The run of a process for a mutation. -/
def processLaunch (m : Mutation) (options : BatchOptions) (program : Program) (catalog : String)
    (testCommand workdir : Option String) : Launch where
  program := program
  args := cycleArgs m options catalog testCommand workdir
  workdir := none
  limit := options.cycle.timeout + grace

/-- A mutation has a process, after which its result is collected, unless its limit of time breaks
the turn down before or after the process. -/
theorem runs_runProcess {m : Mutation} {ending : CycleEnd} {program : Program} {catalog : String}
    {testCommand workdir : Option String}
    (h : Runs w (runProcess m options program catalog testCommand workdir) s events ending s₂) :
  (s₂ = s ∧ ∃ message, ending = .brokenDown message)
    ∨ ∃ start s₀ a s₁, w .clock s start s₀
      ∧ w (.launch (processLaunch m options program catalog testCommand workdir)) s₀ a s₁
      ∧ ((s₂ = s₁ ∧ ∃ message, ending = .brokenDown message)
        ∨ ∃ before detail s' after result, Runs w (processDetail m program a) s₁ before detail s'
          ∧ Runs w (collectResult m options detail) s' after result s₂
          ∧ ending = .finished result)
  := by
  rw [runProcess] at h
  split at h
  · obtain ⟨-, rfl, rfl⟩ := runs_pure_iff.mp h
    left
    use rfl, "overflow when adding durations"
  · right
    rw [runProgram, Procedure.bind_assoc] at h
    obtain ⟨start, s₀, _, hstart, hstarted, -⟩ := runs_request_iff.mp h
    rw [Procedure.bind_assoc] at hstarted
    obtain ⟨a, s₁, rest, hlaunch, hrest, -⟩ := runs_request_iff.mp hstarted
    use start, s₀, a, s₁, hstart, hlaunch
    have hcollect : Runs w (do
          let detail ← processDetail m program a
          return CycleEnd.finished (← collectResult m options detail)) s₁ rest ending s₂ →
        ∃ before detail s' after result, Runs w (processDetail m program a) s₁ before detail s'
          ∧ Runs w (collectResult m options detail) s' after result s₂
          ∧ ending = .finished result := by
      intro hrest
      obtain ⟨before, detail, s', _, hdetail, hrest, -⟩ := runs_bind_iff.mp hrest
      obtain ⟨after, result, s'', _, hresult, hdone, -⟩ := runs_bind_iff.mp hrest
      obtain ⟨-, rfl, rfl⟩ := runs_pure_iff.mp hdone
      exact ⟨before, detail, s', after, result, hdetail, hresult, rfl⟩
    rcases a with e | ⟨success, output⟩ | output | output
    · apply Or.inr (hcollect hrest)
    · dsimp only at hrest
      split at hrest
      · obtain ⟨-, rfl, rfl⟩ := runs_pure_iff.mp hrest
        left
        use rfl, "overflow when adding duration to instant"
      · apply Or.inr (hcollect hrest)
    · apply Or.inr (hcollect hrest)
    · apply Or.inr (hcollect hrest)

/-! ### Turns in the process of the batch -/

/-- What is done outside of the cycles may be done before them. -/
theorem Cycles.of_asks {α : Type} {p : Procedure α} {a : α}
    (hp : p.Asks (Between all options.outputDir)) (hruns : Runs w p s part a s₁)
    (h : Cycles w parser options all cycles s₁ events s₂) :
  Cycles w parser options all cycles s (part ++ events) s₂
  := by
  induction p generalizing s part with
  | done value =>
    obtain ⟨rfl, -, rfl⟩ := runs_done_iff.mp hruns
    apply h
  | ask request next ih =>
    obtain ⟨a, s', rest, hanswer, hrest, rfl⟩ := runs_ask_iff.mp hruns
    apply between hp.1 hanswer
    apply ih a (hp.2 a) hrest

/-- A mutation has its cycle, and then its result is stored. -/
theorem runs_runOne {m : Mutation} {ending : CycleEnd} (hisolation : options.isolation = .inProcess)
    (hm : m ∈ all) (h : Runs w (runOne parser m options) s part ending s₁) :
  ∃ during after run s', part = during ++ after ∧ ending = run.ending
    ∧ Runs w (Cycle.run parser m options.cycle) s during run s'
    ∧ ∀ {cycles events s₂}, Cycles w parser options all cycles s₁ events s₂ →
      Cycles w parser options all cycles s' (after ++ events) s₂
  := by
  have hmake : ∀ parent, Path.parent? (Store.resultPath options.outputDir m.id) = some parent →
      parent ≠ "" → Between all options.outputDir (.file (.makeDirectories parent)) :=
    fun _ => .makeParent hm
  have hwrite : ∀ text, Between all options.outputDir
      (.file (.write (Store.resultPath options.outputDir m.id) text)) := fun _ => .write hm
  rw [runOne_of_inProcess hisolation] at h
  -- Which path it is makes no difference, and a variable keeps its text from being computed.
  generalize Store.resultPath options.outputDir m.id = path at h hmake hwrite
  obtain ⟨during, run, s', after, hcycle, hrest, rfl⟩ := runs_bind_iff.mp h
  use during, after, run, s', rfl
  cases hending : run.ending with
  | finished result =>
    rw [hending] at hrest
    dsimp only at hrest
    obtain ⟨saving, saved, s'', _, hsave, hdone, rfl⟩ := runs_bind_iff.mp hrest
    obtain ⟨rfl, rfl, rfl⟩ := runs_pure_iff.mp hdone
    use rfl, hcycle
    intro cycles events s₂ hcycles
    rw [List.append_nil]
    apply hcycles.of_asks (Store.asks_save hmake hwrite) hsave
  | unrestored failure =>
    rw [hending] at hrest
    obtain ⟨rfl, rfl, rfl⟩ := runs_pure_iff.mp hrest
    use rfl, hcycle
    exact fun hcycles => hcycles
  | brokenDown message =>
    rw [hending] at hrest
    obtain ⟨rfl, rfl, rfl⟩ := runs_pure_iff.mp hrest
    use rfl, hcycle
    exact fun hcycles => hcycles

/-- The turns of a batch in its own process are cycles, after each of which the result is stored. -/
theorem Cycles.of_turns (hisolation : options.isolation = .inProcess)
    (hall : turns.map (·.1) ⊆ all) (h : Turns w parser options turns s events s₂) :
  Cycles w parser options all turns s events s₂
  := by
  induction h with
  | nil => apply Cycles.nil
  | idle hidle hanswer _ ih => cases hidle <;> exact .between (by constructor) hanswer (ih hall)
  | turn hturn _ ih =>
    obtain ⟨hm, hturns⟩ := List.cons_subset.mp hall
    obtain ⟨during, after, run, s', rfl, rfl, hcycle, hafter⟩ := runs_runOne hisolation hm hturn
    rw [List.append_assoc]
    apply Cycles.cycle hcycle (hafter (ih hturns))

/-- The mutations of a batch that have their turns are among those that it is given. -/
theorem Concludes.map_fst_prefix {interrupted : Prop} {ending : BatchEnd} {outputDir : String}
    (h : Concludes w outputDir mutations s interrupted turns ending) :
  turns.map (·.1) <+: mutations
  := by
  cases h with
  | unprepared => apply List.nil_prefix
  | unrestored hends => apply hends.map_fst_prefix
  | brokenDown hends => apply hends.map_fst_prefix
  | finished _ hends => apply hends.map_fst_prefix

/-- A batch in its own process goes through its cycles and ends as they do. -/
theorem exists_cycles {ending : BatchEnd} (hisolation : options.isolation = .inProcess)
    (h : Runs w (Batch.run parser mutations options) s events ending s₂) :
  ∃ cycles, Cycles w parser options mutations cycles s events s₂
    ∧ Concludes w options.outputDir mutations s (⟨.isInterrupted, true⟩ ∈ events) cycles ending
  := by
  obtain ⟨turns, hproceeds, hconcludes⟩ := exists_turns h
  use turns
  constructor
  · cases hproceeds with
    | unprepared hmake => apply Cycles.between .prepare hmake .nil
    | prepared hmake hturns =>
      apply Cycles.between .prepare hmake
      apply Cycles.of_turns hisolation hconcludes.map_fst_prefix.subset hturns
  · apply hconcludes

end MutationTesting.Batch
