import MutationTesting.Proofs.Batch.Rounds
import MutationTesting.Proofs.Cycle.Steadiness
import MutationTesting.Proofs.Report

/-!
# Every mutation of a batch is judged as it is alone

On a steady disk that a batch leaves `Batch.Undisturbed`, every mutation of the batch gets the
result that a cycle of it alone `Cycle.ComesTo`, whatever other mutations there are and in whatever
order, and every file holds in the end what it held at first. A cycle that cannot restore its file
is the last one of its batch in any world.
-/

namespace MutationTesting

open Disk Procedure

/-- A tally counts results by their status. -/
structure Tally.Counts (t : Tally) (results : List TestResult) : Prop where
  total : t.total = results.length
  killed : t.killed = (results.filter fun r => r.status = .killed).length
  survived : t.survived = (results.filter fun r => r.status = .survived).length
  timeouts : t.timeouts = (results.filter fun r => r.status = .timeout).length
  errors : t.errors = (results.filter fun r => r.status = .error).length
  each : t.killed + t.survived + t.timeouts + t.errors = t.total

/-- All cycles of a mutation from a disk come to one end, but for the time, and there are some. -/
structure Cycle.ComesTo (w : World Disk) (parser : Parser) (options : CycleOptions) (d : Disk)
    (m : Mutation) (ending : CycleEnd) : Prop where
  exists_run : ∃ events run d', Runs w (Cycle.run parser m options) d events run d'
  ending : ∀ {events run d'}, Runs w (Cycle.run parser m options) d events run d' →
    run.ending.judged = ending.judged

namespace Batch

/-- The locations on the ways to the files of some mutations and to their backups. -/
def ways (home : Location) (mutations : List Mutation) : Set Location :=
  { l | ∃ m ∈ mutations, l ∈ passes home m.file ∨ l ∈ passes home (Backup.path m.file) }

/-- On the ways to the files of some mutations and to their backups no result is written, no
directory has to be made for results, and no compiled code is cleared. -/
structure Undisturbed (d : Disk) (mutations : List Mutation) (outputDir : String) : Prop where
  prepared : ∀ l ∈ passes d.home outputDir, d.lookup? l = none → l ∉ ways d.home mutations
  made : ∀ m ∈ mutations, ∀ l ∈ passes d.home (Store.resultPath outputDir m.id),
    d.lookup? l = none → l ∉ ways d.home mutations
  result : ∀ m ∈ mutations, place d.home (Store.resultPath outputDir m.id) ∈ ways d.home mutations →
    d.lookup? (place d.home (Store.resultPath outputDir m.id)) = some .directory
  compiled : ∀ m ∈ mutations, ∀ path, Backup.Clears m.file path →
    place d.home path ∉ ways d.home mutations

variable {refusals : Refusals} {verdict : Verdict} {parser : Parser} {options : BatchOptions}
  {all mutations : List Mutation} {cycles : List (Mutation × CycleEnd)} {events : List Event}
  {home : Location} {d d' d₁ d₂ : Disk}

theorem tally_counts (results : List TestResult) :
  (Tally.ofResults results).Counts results
  := by
  have hnumber : ∀ status, (Tally.ofResults results).number status
      = (results.filter fun r => r.status = status).length := by
    intro status
    rw [Tally.ofResults, Tally.number_ofStatuses, List.count, List.countP_map,
      List.countP_eq_length_filter]
    congr
  constructor
  · rw [Tally.ofResults, Tally.total_ofStatuses, List.length_map]
  · apply hnumber .killed
  · apply hnumber .survived
  · apply hnumber .timeout
  · apply hnumber .error
  · apply Tally.sum_number_ofStatuses

theorem Undisturbed.confined {m : Mutation} (h : Undisturbed d mutations options.outputDir)
    (hm : m ∈ mutations) :
  Confined d.home (ways d.home mutations) m.file
  := by
  constructor
  · exact fun l hl => ⟨m, hm, .inl hl⟩
  · exact fun l hl => ⟨m, hm, .inr hl⟩
  · exact fun path hclears _ => h.compiled m hm path hclears

/-- Making directories on a steady disk makes nothing else, and only along their path. -/
theorem extends_of_steady {path : String} {a : Except FileError Unit}
    (h : World.steady refusals verdict (.file (.makeDirectories path)) d a d') :
  Extends d d' ∧ Along path d d'
  := by
  obtain ⟨-, rfl⟩ | ⟨-, hperform⟩ := h
  · exact ⟨Extends.refl _, Along.refl path _⟩
  · obtain ⟨-, hmake⟩ | ⟨rfl, -⟩ := Yields.of_commit hperform
    · apply extends_of_makeDirectories hmake
    · exact ⟨Extends.refl _, Along.refl path _⟩

/-- A directory on a steady disk is not written to. -/
theorem eq_of_steady_write {path text : String} {a : Except FileError Unit}
    (hdirectory : d.lookup? (place d.home path) = some .directory)
    (h : World.steady refusals verdict (.file (.write path text)) d a d') :
  d' = d
  := by
  obtain ⟨-, rfl⟩ | ⟨-, hperform⟩ := h
  · rfl
  · obtain ⟨-, hwrite⟩ | ⟨rfl, -⟩ := Yields.of_commit hperform
    · obtain ⟨l, hlocate, hother, -⟩ := writeContent_ok_iff.mp hwrite
      rw [(locate_name hlocate).1] at hother
      cases hother hdirectory
    · rfl

/-- What a batch asks for outside of its cycles does nothing on the ways to the files. -/
theorem Between.agree {request : Request} {a : request.Answer} (hsub : all ⊆ mutations)
    (hundisturbed : Undisturbed d mutations options.outputDir)
    (h : Between all options.outputDir request)
    (hanswer : World.steady refusals verdict request d₁ a d₂)
    (hagree : Agree d.home (ways d.home mutations) d d₁) :
  Agree d.home (ways d.home mutations) d d₂
  := by
  have hmade : ∀ {path}, (∀ l ∈ passes d.home path, d.lookup? l = none →
      l ∉ ways d.home mutations) → Extends d₁ d₂ ∧ Along path d₁ d₂ →
      Agree d.home (ways d.home mutations) d d₂ := by
    rintro path hpath ⟨hextends, halong⟩
    apply hagree.trans (hextends.agree halong hagree.right _)
    intro l hl hway hnone
    apply hpath l hl _ hway
    rw [← hagree.lookup? hway, hnone]
  cases h with
  | prepare => apply hmade hundisturbed.prepared (extends_of_steady hanswer)
  | @makeParent m parent hm hparent hne =>
    apply hmade _ (extends_of_steady hanswer)
    exact fun l hl => hundisturbed.made m (hsub hm) l (passes_of_parent? hparent hne hl)
  | @write m text hm =>
    by_cases hway : place d.home (Store.resultPath options.outputDir m.id) ∈ ways d.home mutations
    · have hdirectory := hundisturbed.result m (hsub hm) hway
      rw [← hagree.lookup? hway, ← hagree.right] at hdirectory
      obtain rfl := eq_of_steady_write hdirectory hanswer
      apply hagree
    · apply hagree.trans
      apply ((World.yields_of_steady hanswer).touched rfl).agree hagree.right
      exact fun _ => hway
  | isInterrupted =>
    obtain ⟨-, rfl⟩ := hanswer
    apply hagree
  | clock =>
    cases hanswer
    apply hagree
  | print =>
    cases hanswer
    apply hagree
  | identify =>
    obtain ⟨-, rfl⟩ | ⟨-, hperform⟩ := hanswer
    · apply hagree
    · cases hperform
      apply hagree

/-- The cycles of a batch come to what the mutations come to alone, and if all come to results,
nothing has changed on the ways to the files. -/
theorem Cycles.agree {interrupted : Prop} {others : List Mutation}
    {result : Except Stop (List TestResult)} (hall : all ⊆ mutations) (hothers : others ⊆ mutations)
    (hundisturbed : Undisturbed d mutations options.outputDir)
    (hverdict : ∀ {d₁ d₂}, Agree d.home (ways d.home mutations) d₁ d₂ →
      verdict options.cycle.scope options.cycle.timeout d₁
        = verdict options.cycle.scope options.cycle.timeout d₂)
    (h : Cycles (World.steady refusals verdict) parser options all cycles d₁ events d₂)
    (hends : Ends interrupted others cycles result)
    (hagree : Agree d.home (ways d.home mutations) d d₁) :
  (∀ m ending, (m, ending) ∈ cycles →
      Cycle.ComesTo (World.steady refusals verdict) parser options.cycle d m ending)
    ∧ ∀ results, result = .ok results → Agree d.home (ways d.home mutations) d d₂
  := by
  induction h generalizing others result with
  | nil =>
    constructor
    · exact fun _ _ hmem => absurd hmem List.not_mem_nil
    · exact fun _ _ => hagree
  | between hbetween hanswer _ ih =>
    exact ih hothers hends (hbetween.agree hall hundisturbed hanswer hagree)
  | @cycle m cycles run during events d₁ d' d₂ hcycle _ ih =>
    have hm : m ∈ mutations := hothers (hends.map_fst_prefix.subset List.mem_cons_self)
    have hconfined := hundisturbed.confined hm
    have hcomes :
        Cycle.ComesTo (World.steady refusals verdict) parser options.cycle d m run.ending := by
      use exists_runs World.exists_of_steady _ d
      intro events' run' d'' hruns
      apply (Cycle.alike_run hconfined hverdict hagree hruns hcycle).1
    have hfirst : ∀ {rest : List (Mutation × CycleEnd)}, (∀ m' ending', (m', ending') ∈ rest →
        Cycle.ComesTo (World.steady refusals verdict) parser options.cycle d m' ending') →
        ∀ m' ending', (m', ending') ∈ (m, run.ending) :: rest →
        Cycle.ComesTo (World.steady refusals verdict) parser options.cycle d m' ending' := by
      intro rest hrest m' ending' hmem
      obtain heq | hmem := List.mem_cons.mp hmem
      · cases heq
        apply hcomes
      · apply hrest m' ending' hmem
    generalize hending : run.ending = ending at hends hfirst
    cases hends with
    | unrestored => exact ⟨hfirst (by simp), by simp⟩
    | brokenDown => exact ⟨hfirst (by simp), by simp⟩
    | @cons _ _ result' _ rest hends =>
      have hafter := hagree.trans (Cycle.agree_of_runs hconfined hagree.right hcycle hending)
      obtain ⟨hrest, hlast⟩ := ih (fun _ hmem => hothers (List.mem_cons_of_mem _ hmem)) hends hafter
      use hfirst hrest
      intro results hresults
      cases rest with
      | error stop => cases hresults
      | ok others => apply hlast others rfl

/-! ### Batches -/

/-- There is no interruption on a steady disk. -/
theorem not_interrupted_of_steady {α : Type} {p q : Procedure α}
    (h : Reaches (World.steady refusals verdict) p d events q d') :
  ⟨.isInterrupted, true⟩ ∉ events
  := by
  induction h with
  | refl => simp
  | @step request next a q events d d₁ d₂ hanswer _ ih =>
    intro hmem
    obtain heq | hmem := List.mem_cons.mp hmem
    · cases heq
      cases hanswer.1
    · apply ih hmem

/-- A steady disk has one answer to each operation. -/
theorem answer_unique {operation : FileOperation} {a b : operation.Answer}
    (h : World.steady refusals verdict (.file operation) d a d₁)
    (h' : World.steady refusals verdict (.file operation) d b d₂) :
  a = b
  := by
  obtain ⟨hrefused, -⟩ | ⟨hrefused, hperform⟩ := h
  · obtain ⟨hrefused', -⟩ | ⟨hrefused', -⟩ := h'
    · apply Option.some.inj (hrefused.symm.trans hrefused')
    · cases hrefused.symm.trans hrefused'
  · obtain ⟨hrefused', -⟩ | ⟨-, hperform'⟩ := h'
    · cases hrefused.symm.trans hrefused'
    · apply (Prod.mk.inj (hperform.symm.trans hperform')).1

/-- A mutation does not come to two ends. -/
theorem judged_eq_of_comesTo {w : World Disk} {options : CycleOptions} {m : Mutation}
    {ending ending' : CycleEnd} (h : Cycle.ComesTo w parser options d m ending)
    (h' : Cycle.ComesTo w parser options d m ending') :
  ending.judged = ending'.judged
  := by
  obtain ⟨events, run, d', hruns⟩ := h.exists_run
  rw [← h.ending hruns, h'.ending hruns]

section

variable {ending : BatchEnd} {judge : Mutation → TestResult}
  (hisolation : options.isolation = .inProcess)
  (hundisturbed : Undisturbed d mutations options.outputDir)
  (hverdict : ∀ {d₁ d₂}, Agree d.home (ways d.home mutations) d₁ d₂ →
    verdict options.cycle.scope options.cycle.timeout d₁
      = verdict options.cycle.scope options.cycle.timeout d₂)

include hisolation hundisturbed hverdict

/-- If the directory for the results can be made and all mutations come to results alone, a batch
of some of them finishes with these results and leaves the files as they were. -/
theorem finished_of_comesTo (hall : all ⊆ mutations)
    (hmake : ∃ d₁, World.steady refusals verdict (.file (.makeDirectories options.outputDir)) d
      (.ok ()) d₁)
    (hcomes : ∀ m ∈ mutations, Cycle.ComesTo (World.steady refusals verdict) parser options.cycle d
      m (.finished (judge m)))
    (h : Runs (World.steady refusals verdict) (Batch.run parser all options) d events ending d') :
  ∃ outcome, ending = .finished outcome
    ∧ outcome.results.map (·.judged) = all.map (fun m => (judge m).judged)
    ∧ outcome.interrupted = false ∧ Agree d.home (ways d.home mutations) d d'
  := by
  obtain ⟨cycles, hcycles, hconcludes⟩ := exists_cycles hisolation h
  have hfinished : ∀ {interrupted result}, Ends interrupted all cycles result →
      ∀ m ending, (m, ending) ∈ cycles → ending.judged = .finished (judge m).judged := by
    intro interrupted result hends m ending hmem
    have halone := (hcycles.agree hall hall hundisturbed hverdict hends (Agree.refl rfl)).1
    have hm : m ∈ all := hends.map_fst_prefix.subset (List.mem_map_of_mem hmem)
    apply judged_eq_of_comesTo (halone m ending hmem) (hcomes m (hall hm))
  have herror : ∀ {interrupted stop}, ¬Ends interrupted all cycles (.error stop) := by
    intro interrupted stop hends
    obtain ⟨m, ending, hmem, hnot⟩ := hends.exists_of_error
    have hjudged := hfinished hends m ending hmem
    cases ending with
    | finished result => apply hnot result rfl
    | unrestored failure => cases hjudged
    | brokenDown message => cases hjudged
  cases hconcludes with
  | unprepared hfailed =>
    obtain ⟨d₁, hmade⟩ := hmake
    cases answer_unique hfailed hmade
  | unrestored hends => cases herror hends
  | brokenDown hends => cases herror hends
  | @finished _ outcome _ _ hends hinterrupted =>
    have hends := hends.mono (not_interrupted_of_steady h)
    use outcome, rfl
    have hresults : outcome.results.map (·.judged) = all.map (fun m => (judge m).judged) := by
      apply hends.results_eq
      intro m result hmem
      have hjudged := hfinished hends m _ hmem
      simpa [CycleEnd.judged] using hjudged
    use hresults
    constructor
    · have hlength := congrArg List.length hresults
      rw [List.length_map, List.length_map] at hlength
      rw [hinterrupted, hlength]
      simp
    · apply (hcycles.agree hall hall hundisturbed hverdict hends (Agree.refl rfl)).2 _ rfl

/-- The mutations of a batch that finishes come to results alone. -/
theorem exists_comesTo (hfinished : ∃ outcome, ending = .finished outcome)
    (h : Runs (World.steady refusals verdict) (Batch.run parser mutations options) d events ending
      d') :
  (∃ d₁, World.steady refusals verdict (.file (.makeDirectories options.outputDir)) d (.ok ()) d₁)
    ∧ ∀ m ∈ mutations, ∃ result, Cycle.ComesTo (World.steady refusals verdict) parser
      options.cycle d m (.finished result)
  := by
  obtain ⟨cycles, hcycles, hconcludes⟩ := exists_cycles hisolation h
  obtain ⟨outcome, rfl⟩ := hfinished
  cases hconcludes with
  | @finished _ _ d₁ hmake hends _ =>
    use ⟨d₁, hmake⟩
    intro m hm
    have hends := hends.mono (not_interrupted_of_steady h)
    obtain ⟨result, hmem⟩ := hends.exists_finished hm
    use result
    apply (hcycles.agree (List.Subset.refl _) (List.Subset.refl _) hundisturbed hverdict hends
      (Agree.refl rfl)).1 m _ hmem

end

/-- A mutation comes to a result of its own. -/
theorem mutationId_of_comesTo {w : World Disk} {options : CycleOptions} {m : Mutation}
    {result : TestResult} (h : Cycle.ComesTo w parser options d m (.finished result)) :
  result.mutationId = m.id
  := by
  obtain ⟨events, run, d', hruns⟩ := h.exists_run
  have hjudged := h.ending hruns
  cases hending : run.ending with
  | finished found =>
    rw [hending] at hjudged
    have hid : some found.mutationId = some result.mutationId :=
      congrArg (·.result?.map (·.mutationId)) hjudged
    rw [← Option.some.inj hid]
    apply (Cycle.gives_run.of_runs hruns found hending).1
  | unrestored failure =>
    rw [hending] at hjudged
    cases hjudged
  | brokenDown message =>
    rw [hending] at hjudged
    cases hjudged

/-- The outcome of a batch in which each mutation is judged as it should be. -/
structure Judges (judge : Mutation → TestResult) (all : List Mutation) (outcome : BatchOutcome) :
    Prop where
  results : outcome.results.map (·.judged) = all.map fun m => (judge m).judged
  ids : outcome.results.map (·.mutationId) = all.map (·.id)
  complete : outcome.interrupted = false
  counts : outcome.tally.Counts outcome.results

/-- Every batch of some of the mutations finishes with the results that they should have and leaves
all their files and backups as they were. -/
def Finishes (w : World Disk) (parser : Parser) (options : BatchOptions)
    (judge : Mutation → TestResult) (mutations : List Mutation) (d : Disk) : Prop :=
  ∀ all, all ⊆ mutations → ∀ {events ending d'},
    Runs w (Batch.run parser all options) d events ending d' →
    ∃ outcome, ending = .finished outcome ∧ Judges judge all outcome
      ∧ ∀ m ∈ mutations, d'.readContent m.file = d.readContent m.file
        ∧ d'.isPresent (Backup.path m.file) = d.isPresent (Backup.path m.file)

/-- If mutations come to results alone and the directory for these can be made, batches of them
finish with these results. -/
theorem finishes_of_comesTo {judge : Mutation → TestResult}
    (hisolation : options.isolation = .inProcess)
    (hundisturbed : Undisturbed d mutations options.outputDir)
    (hverdict : ∀ {d₁ d₂}, Agree d.home (ways d.home mutations) d₁ d₂ →
      verdict options.cycle.scope options.cycle.timeout d₁
        = verdict options.cycle.scope options.cycle.timeout d₂)
    (hmake : ∃ d₁, World.steady refusals verdict (.file (.makeDirectories options.outputDir)) d
      (.ok ()) d₁)
    (hcomes : ∀ m ∈ mutations, Cycle.ComesTo (World.steady refusals verdict) parser options.cycle d
      m (.finished (judge m))) :
  Finishes (World.steady refusals verdict) parser options judge mutations d
  := by
  intro all hall events ending d' hruns
  obtain ⟨outcome, rfl, hresults, hcomplete, hagree⟩ :=
    finished_of_comesTo hisolation hundisturbed hverdict hall hmake hcomes hruns
  have hids : ∀ results : List TestResult,
      results.map (·.mutationId) = (results.map (·.judged)).map (·.mutationId) := by
    intro results
    rw [List.map_map]
    rfl
  use outcome, rfl
  constructor
  · constructor
    · apply hresults
    · rw [hids, hresults, List.map_map]
      apply List.map_congr_left
      intro m hm
      have hid : (judge m).mutationId = m.id := mutationId_of_comesTo (hcomes m (hall hm))
      apply hid
    · apply hcomplete
    · apply tally_counts
  · intro m hm
    have hconfined := hundisturbed.confined hm
    use hagree.readContent_eq hconfined.itself
    apply hagree.isPresent_eq hconfined.backup

/-- A batch whose cycles all come to results finishes, and has gone through all of its mutations if
there was no interruption. -/
theorem Concludes.finished_of_forall {σ : Type} {w : World σ} {s : σ} {interrupted : Prop}
    {ending : BatchEnd} {outputDir : String}
    (h : Concludes w outputDir mutations s interrupted cycles ending)
    (hprepared : ∀ path cause, ending ≠ .unprepared path cause)
    (hfinished : ∀ cycle ∈ cycles, ∃ result, cycle.2 = .finished result) :
  ∃ outcome, ending = .finished outcome ∧ (¬interrupted → cycles.map (·.1) = mutations)
  := by
  have herror : ∀ {stop}, ¬Ends interrupted mutations cycles (.error stop) := by
    intro stop hends
    obtain ⟨m, ending, hmem, hnot⟩ := hends.exists_of_error
    obtain ⟨result, hresult⟩ := hfinished _ hmem
    exact hnot result hresult
  cases h with
  | unprepared => cases hprepared _ _ rfl
  | unrestored hends => cases herror hends
  | brokenDown hends => cases herror hends
  | @finished _ outcome _ _ hends _ =>
    use outcome, rfl
    intro hnot
    apply (hends.mono hnot).map_fst_eq

/-- If a batch finishes on a steady disk that it leaves undisturbed, each of its mutations comes to
a result alone. If each comes to a result alone, be it one with the status `error`, and the
directory for the results can be made, every batch of such mutations finishes with these results in
their order and leaves the files as they were. In any world a cycle that cannot restore its file is
the last one of its batch, and its failure is what the batch ends with, while a batch whose cycles
all come to results finishes, and ends before the last mutation only if there is an interruption. -/
theorem run_independent (hisolation : options.isolation = .inProcess) :
  (∀ {refusals verdict mutations events outcome d d'},
      Undisturbed d mutations options.outputDir →
      (∀ {d₁ d₂}, Agree d.home (ways d.home mutations) d₁ d₂ →
        verdict options.cycle.scope options.cycle.timeout d₁
          = verdict options.cycle.scope options.cycle.timeout d₂) →
      Runs (World.steady refusals verdict) (Batch.run parser mutations options) d events
        (.finished outcome) d' →
      ∃ judge : Mutation → TestResult,
        (∀ m ∈ mutations, Cycle.ComesTo (World.steady refusals verdict) parser options.cycle d m
          (.finished (judge m)))
        ∧ Finishes (World.steady refusals verdict) parser options judge mutations d)
    ∧ (∀ {refusals verdict mutations d} {judge : Mutation → TestResult},
      Undisturbed d mutations options.outputDir →
      (∀ {d₁ d₂}, Agree d.home (ways d.home mutations) d₁ d₂ →
        verdict options.cycle.scope options.cycle.timeout d₁
          = verdict options.cycle.scope options.cycle.timeout d₂) →
      (∃ d₁, World.steady refusals verdict (.file (.makeDirectories options.outputDir)) d (.ok ())
        d₁) →
      (∀ m ∈ mutations, Cycle.ComesTo (World.steady refusals verdict) parser options.cycle d m
        (.finished (judge m))) →
      Finishes (World.steady refusals verdict) parser options judge mutations d)
    ∧ ∀ {σ : Type} {w : World σ} {mutations events ending s s'},
      Runs w (Batch.run parser mutations options) s events ending s' →
      ∃ cycles, Cycles w parser options mutations cycles s events s'
        ∧ cycles.map (·.1) <+: mutations
        ∧ (∀ m failure, (m, .unrestored failure) ∈ cycles →
          cycles.getLast? = some (m, .unrestored failure) ∧ ending = .unrestored failure)
        ∧ ((∀ path cause, ending ≠ .unprepared path cause) →
          (∀ cycle ∈ cycles, ∃ result, cycle.2 = .finished result) →
          ∃ outcome, ending = .finished outcome
            ∧ (⟨.isInterrupted, true⟩ ∉ events → cycles.map (·.1) = mutations))
  := by
  refine ⟨?_, finishes_of_comesTo hisolation, ?_⟩
  · intro refusals verdict mutations events outcome d d' hundisturbed hverdict hruns
    obtain ⟨hmake, hcomes⟩ := exists_comesTo hisolation hundisturbed hverdict ⟨outcome, rfl⟩ hruns
    have hnonempty : Nonempty TestResult := ⟨.blank (.atStart "" "" "") .error⟩
    choose! judge hjudge using hcomes
    use judge, hjudge
    apply finishes_of_comesTo hisolation hundisturbed hverdict hmake hjudge
  · intro σ w mutations events ending s s' hruns
    obtain ⟨cycles, hcycles, hconcludes⟩ := exists_cycles hisolation hruns
    refine ⟨cycles, hcycles, hconcludes.map_fst_prefix, ?_, hconcludes.finished_of_forall⟩
    intro m failure hmem
    cases hconcludes with
    | unprepared => cases hmem
    | unrestored hends =>
      obtain ⟨hfailure, hlast⟩ := hends.eq_of_unrestored_mem hmem
      cases hfailure
      exact ⟨hlast, rfl⟩
    | brokenDown hends => cases (hends.eq_of_unrestored_mem hmem).1
    | finished hmake hends => cases (hends.eq_of_unrestored_mem hmem).1

end Batch

/-! ### Batches that are disturbed -/

/-- What a batch that finished came to. -/
def BatchEnd.outcome? : BatchEnd → Option BatchOutcome
  | finished outcome => some outcome
  | unprepared _ _ | unrestored _ | brokenDown _ => none

theorem BatchEnd.outcome?_eq_some_iff {ending : BatchEnd} {outcome : BatchOutcome} :
  ending.outcome? = some outcome ↔ ending = .finished outcome
  := by
  cases ending <;> simp [outcome?]

/-- Batches in this process into a directory. -/
def BatchOptions.plain (outputDir : String) : BatchOptions where
  cycle := .plain
  maxConcurrency := 1
  progressEvery := 0
  verbose := false
  outputDir := outputDir
  isolation := .inProcess

/-- A disk with a module and its compiled code. -/
def Disk.moduleWithCode : Disk :=
  ((Disk.single "a.py" "<").put ["home", "__pycache__"] .directory).put
    ["home", "__pycache__", "a.x.pyc"] (.file (.text "<"))

namespace Batch

instance (home l : Location) (mutations : List Mutation) : Decidable (l ∈ ways home mutations) :=
  inferInstanceAs (Decidable (∃ m ∈ mutations, l ∈ passes home m.file
    ∨ l ∈ passes home (Backup.path m.file)))

/-- Two mutations of one file come to their results in whatever order they are run, and so does one
between them that cannot be made. -/
theorem run_independent_stray :
  let d := Disk.single "a.go" "<"
  let m : Mutation := { Mutation.atStart "a.go" "<" ">" with id := "M0" }
  let stray : Mutation := { Mutation.atStart "a.go" "=" ">" with id := "M1" }
  let m' : Mutation := { Mutation.atStart "a.go" "<" "<=" with id := "M2" }
  Undisturbed d [m, stray, m'] "out"
    ∧ ∃ outcome judge,
      ((Batch.run Parser.single [m, stray, m'] (.plain "out")).run Disk.serve d).1
        = .finished outcome
      ∧ outcome.results.map (·.status) = [.survived, .error, .survived]
      ∧ Judges judge [m, stray, m'] outcome
      ∧ ∃ outcome',
        ((Batch.run Parser.single [m', stray, m] (.plain "out")).run Disk.serve d).1
          = .finished outcome'
        ∧ Judges judge [m', stray, m] outcome'
  := by
  intro d m stray m'
  have hundisturbed : Undisturbed d [m, stray, m'] "out" := by
    constructor
    · decide +kernel
    · decide +kernel
    · decide +kernel
    · rintro other hother path ⟨hextension, -⟩
      have hgo : ∀ other ∈ [m, stray, m'], Path.extension? other.file ≠ some "py" := by
        decide +kernel
      cases hgo other hother hextension
  have hstatuses : ((Batch.run Parser.single [m, stray, m'] (.plain "out")).run
      Disk.serve d).1.outcome?.map (fun outcome => outcome.results.map (·.status))
      = some [.survived, .error, .survived] := by
    decide +kernel
  have hmake : World.steady .none .passing (.file (.makeDirectories "out")) d (.ok ())
      (d.perform (.makeDirectories "out")).2 := by
    right
    decide +kernel
  have hruns := fun all => (runs_run Disk.serve (Batch.run Parser.single all (.plain "out"))
    d).mono World.steady_of_serve
  use hundisturbed
  obtain ⟨outcome, houtcome, hstatuses⟩ := Option.map_eq_some_iff.mp hstatuses
  have hbatch := hruns [m, stray, m']
  rw [BatchEnd.outcome?_eq_some_iff.mp houtcome] at hbatch
  obtain ⟨judge, hcomes, hfinishes⟩ :=
    (run_independent rfl).1 hundisturbed (fun _ => rfl) hbatch
  obtain ⟨_, ⟨⟩, hboth, -⟩ := hfinishes _ (List.Subset.refl _) hbatch
  obtain ⟨outcome', houtcome', hswapped, -⟩ := (run_independent rfl).2.1 hundisturbed
    (fun _ => rfl) ⟨_, hmake⟩ hcomes [m', stray, m] (by simp) (hruns [m', stray, m])
  use outcome, judge, BatchEnd.outcome?_eq_some_iff.mp houtcome, hstatuses, hboth, outcome',
    houtcome'

/-- No result of a batch is written to a file that it mutates or to the backup of one, and no such
file is the backup of another one. -/
structure Separate (d : Disk) (mutations : List Mutation) (outputDir : String) : Prop where
  result : ∀ m ∈ mutations, ∀ m' ∈ mutations,
    place d.home (Store.resultPath outputDir m.id) ≠ place d.home m'.file
      ∧ place d.home (Store.resultPath outputDir m.id) ≠ place d.home (Backup.path m'.file)
  backup : ∀ m ∈ mutations, ∀ m' ∈ mutations,
    place d.home m.file ≠ place d.home (Backup.path m'.file)

/-- The results of a batch of some mutations, if it finishes, are what they come to alone. -/
def JudgedAlone (parser : Parser) (options : BatchOptions) (mutations : List Mutation) (d : Disk) :
    Prop :=
  ∀ {events outcome d'}, Runs (World.steady .none .passing) (Batch.run parser mutations options) d
      events (.finished outcome) d' →
    ∃ judge : Mutation → TestResult,
      (∀ m ∈ mutations, Cycle.ComesTo (World.steady .none .passing) parser options.cycle d m
        (.finished (judge m)))
      ∧ outcome.results.map (·.judged) = mutations.map fun m => (judge m).judged

/-- Mutations are not judged as alone if they have other statuses together. -/
theorem not_judgedAlone (together alone : List Status)
    (htogether : ((Batch.run parser mutations options).run Disk.serve d).1.outcome?.map
      (fun outcome => outcome.results.map (·.status)) = some together)
    (halone : mutations.map (fun m => ((Cycle.run parser m options.cycle).run
      Disk.serve d).1.ending.result?.map (·.status)) = alone.map some)
    (hne : together ≠ alone) :
  ¬JudgedAlone parser options mutations d
  := by
  intro h
  obtain ⟨outcome, houtcome, hstatuses⟩ := Option.map_eq_some_iff.mp htogether
  have hbatch := (runs_run Disk.serve (Batch.run parser mutations options) d).mono
    World.steady_of_serve
  rw [BatchEnd.outcome?_eq_some_iff.mp houtcome] at hbatch
  obtain ⟨judge, hcomes, hresults⟩ := h hbatch
  have hjudged : mutations.map (fun m => some (judge m).status) = alone.map some := by
    rw [← halone]
    apply List.map_congr_left
    intro m hm
    have hjudged := (hcomes m hm).ending
      ((runs_run Disk.serve (Cycle.run parser m options.cycle) d).mono
        World.steady_of_serve)
    have hstatus : ∀ ending : CycleEnd,
        ending.judged.result?.map (·.status) = ending.result?.map (·.status) := by
      intro ending
      cases ending <;> rfl
    rw [← hstatus, hjudged]
    rfl
  apply hne
  apply List.map_injective_iff.mpr fun _ _ => Option.some.inj
  have hmap := congrArg (List.map fun result => some result.status) hresults
  rw [List.map_map, List.map_map] at hmap
  rw [← hjudged, ← hstatuses, List.map_map]
  apply hmap

/-- Mutations are not judged as they are alone if one of them is in compiled code that is cleared
for another one, or if the directory for the results is made where a backup would be. -/
theorem not_independent :
  (¬ ∀ options mutations d, options.isolation = .inProcess →
      Separate d mutations options.outputDir →
      JudgedAlone Parser.single options mutations d)
    ∧ ¬ ∀ options mutations d, options.isolation = .inProcess →
      Separate d mutations options.outputDir →
      (∀ m ∈ mutations, ∀ path, ¬Backup.Clears m.file path) →
      JudgedAlone Parser.single options mutations d
  := by
  constructor
  · intro h
    have hseparate : Separate Disk.moduleWithCode
        [.atStart "a.py" "<" ">", .atStart "__pycache__/a.x.pyc" "<" ">"] "out" :=
      ⟨by decide +kernel, by decide +kernel⟩
    apply not_judgedAlone [.survived, .error] [.survived, .survived] (by decide +kernel)
      (by decide +kernel) (by decide) (h (.plain "out") _ _ rfl hseparate)
  · intro h
    have hseparate : Separate (Disk.single "a.go" "<") [.atStart "a.go" "<" ">"]
        (Backup.path "a.go") :=
      ⟨by decide +kernel, by decide +kernel⟩
    have hgo : ∀ m ∈ [Mutation.atStart "a.go" "<" ">"], ∀ path, ¬Backup.Clears m.file path := by
      intro m hm path hclears
      obtain rfl := List.mem_singleton.mp hm
      have hextension : Path.extension? "a.go" ≠ some "py" := by decide +kernel
      apply hextension hclears.1
    apply not_judgedAlone [.error] [.survived] (by decide +kernel) (by decide +kernel) (by decide)
      (h (.plain (Backup.path "a.go")) _ _ rfl hseparate hgo)

end Batch

end MutationTesting
