import MutationTesting.Proofs.Cycle.Standing
import MutationTesting.Proofs.Cycle.Time
import MutationTesting.Proofs.Discovery.Catalog
import MutationTesting.Proofs.Store.Collection
import MutationTesting.Proofs.Store.Retrieval

/-!
# The results of a batch are collected again

A batch in its own process on an inert disk stores each of its results under the id of the mutation
and leaves everything else with the name of a JSON file alone. So if a directory is `Batch.Ready` for
the results of mutations with different ids, those are what is collected from it.
-/

namespace MutationTesting

open Disk Procedure

variable {parser : Parser} {options : BatchOptions} {m : Mutation} {result : TestResult}
  {mutations : List Mutation} {turns : List (Mutation × CycleEnd)} {outputDir path : String}
  {d d' : Disk} {events : List Event}

/-- A result with the time that is read where its own time is written, if it is read as a number. -/
def TestResult.reread? (r : TestResult) : Option TestResult :=
  (Json.real? (Json.ofFloat r.durationMs)).map fun duration => { r with durationMs := duration }

namespace TestResult

/-- A result with a finite time is read. -/
theorem isSome_reread? {r : TestResult} (h : r.durationMs.isFinite = true) :
  r.reread?.isSome
  := by
  rw [reread?, Option.isSome_map]
  apply Json.real?_ofFloat h

/-- A result is judged as before whatever time is read. -/
theorem map_judged_reread? {r : TestResult} (h : r.reread?.isSome) :
  r.reread?.map judged = some r.judged
  := by
  obtain ⟨r', hr'⟩ := Option.isSome_iff_exists.mp h
  obtain ⟨duration, -, rfl⟩ := Option.map_eq_some_iff.mp hr'
  rw [hr']
  rfl

theorem map_judged_filterMap_reread? {results : List TestResult}
    (h : ∀ r ∈ results, r.reread?.isSome) :
  (results.filterMap reread?).map judged = results.map judged
  := by
  rw [List.map_filterMap, ← List.filterMap_eq_map]
  apply List.filterMap_congr
  intro r hr
  apply map_judged_reread? (h r hr)

theorem map_some_filterMap_reread? {results : List TestResult}
    (h : ∀ r ∈ results, r.reread?.isSome) :
  (results.filterMap reread?).map some = results.map reread?
  := by
  rw [List.map_filterMap_some_eq_filter_map_isSome]
  apply List.filter_eq_self.mpr
  rw [List.forall_mem_map]
  apply h

end TestResult

namespace Store

/-- Where something can be written a record is written and nothing else is done. -/
theorem write_of_runs_save {json : Json} {value : Except StoreError Unit}
    (hwrite : ∃ d₁, d.write path "" = .ok d₁)
    (h : (save path json).Runs World.inert d events value d') :
  d.write path (json.pretty ++ "\n") = .ok d'
  := by
  obtain ⟨_, hwrite⟩ := hwrite
  obtain ⟨l, hlocate, hl, -⟩ := writeContent_ok_iff.mp hwrite
  rw [save, runs_bind_iff] at h
  obtain ⟨_, made, d₁, _, hmade, h, -⟩ := h
  have hparent : made = .ok () ∧ d₁ = d := by
    rw [makeParent] at hmade
    split at hmade
    · obtain ⟨-, rfl, rfl⟩ := runs_pure_iff.mp hmade
      exact ⟨rfl, rfl⟩
    · obtain ⟨-, rfl, rfl⟩ := runs_pure_iff.mp hmade
      exact ⟨rfl, rfl⟩
    · next parent hne hparent =>
      obtain ⟨l', hfind⟩ := exists_find_of_parent? hlocate hparent hne
      obtain ⟨a, d₂, _, hmake, hdone, -⟩ := runs_ask_iff.mp hmade
      obtain ⟨-, rfl, rfl⟩ := runs_done_iff.mp hdone
      rw [World.inert, Disk.perform, makeDirectories_of_find hne hfind] at hmake
      cases hmake
      exact ⟨rfl, rfl⟩
  obtain ⟨rfl, heq⟩ := hparent
  rw [heq] at h
  obtain ⟨a, d₂, _, hwritten, h, -⟩ := runs_request_iff.mp h
  have htext : d.write path (json.pretty ++ "\n")
      = .ok (d.put l (.file (.text (json.pretty ++ "\n")))) := by
    apply writeContent_ok_iff.mpr
    exact ⟨l, hlocate, hl, rfl⟩
  rw [World.inert, Disk.perform, htext] at hwritten
  cases hwritten
  obtain ⟨-, -, rfl⟩ := runs_pure_iff.mp h
  apply htext

/-- Where a result was written it is found, with the time that is read there. -/
theorem result?_of_readText (hline : result.line ≤ Text.maxWord)
    (hread : d.readText path = .ok ((Record.ofResult result).pretty ++ "\n")) :
  result? d path = result.reread?
  := by
  rw [result?, hread]
  dsimp only [Except.toOption, Option.bind_some]
  rw [Record.parse?, (Record.plain_ofResult result).parse?_pretty, Option.bind_some,
    Record.result?_ofResult hline]
  rfl

end Store

namespace Batch

/-- The locations of the results of some mutations. -/
def resultPlaces (home : Location) (outputDir : String) (mutations : List Mutation) :
    Set Location :=
  {l | ∃ m ∈ mutations, l = place home (Store.resultPath outputDir m.id)}

theorem place_resultPath_mem_ending (home : Location) (outputDir id : String) :
  place home (Store.resultPath outputDir id) ∈ ending ".json"
  := by
  obtain ⟨name, hname, hsuffix⟩ := exists_endsIn_of_suffix (by decide) (by decide) (by decide)
    (Store.suffix_resultPath outputDir id)
  use name, hname.getLast?_place home

/-- In the turn of a mutation its result is stored and nothing else is done to JSON files. -/
theorem runs_runOne_stands (hisolation : options.isolation = .inProcess)
    (hwrite : ∃ d₁, d.write (Store.resultPath options.outputDir m.id) "" = .ok d₁)
    (h : Runs World.inert (runOne parser m options) d events (.finished result) d') :
  Stands (ending ".json" \ resultPlaces d.home options.outputDir [m]) d d'
    ∧ result.line = m.line ∧ result.durationMs.isFinite = true
    ∧ d'.readText (Store.resultPath options.outputDir m.id)
      = .ok ((Record.ofResult result).pretty ++ "\n")
  := by
  have hplace : place d.home (Store.resultPath options.outputDir m.id)
      ∉ ending ".json" \ resultPlaces d.home options.outputDir [m] := by
    rintro ⟨-, hnot⟩
    exact hnot ⟨m, List.mem_singleton_self m, rfl⟩
  rw [runOne_of_inProcess hisolation] at h
  -- Which path it is makes no difference, and a variable keeps its text from being computed.
  generalize Store.resultPath options.outputDir m.id = path at h hwrite hplace ⊢
  obtain ⟨_, run, d₁, _, hcycle, hrest, -⟩ := runs_bind_iff.mp h
  cases hending : run.ending with
  | unrestored failure =>
    rw [hending] at hrest
    obtain ⟨-, ⟨⟩, -⟩ := runs_pure_iff.mp hrest
  | brokenDown message =>
    rw [hending] at hrest
    obtain ⟨-, ⟨⟩, -⟩ := runs_pure_iff.mp hrest
  | finished found =>
    rw [hending] at hrest
    obtain ⟨_, saved, d₂, _, hsave, hdone, -⟩ := runs_bind_iff.mp hrest
    obtain ⟨-, heq, rfl⟩ := runs_pure_iff.mp hdone
    cases heq
    have hstands := Cycle.stands_of_finished hcycle hending
    have hwritten := Store.write_of_runs_save (hstands.exists_write hwrite "") hsave
    constructor
    · apply (hstands.mono Set.sdiff_subset).trans
      apply Stands.of_differAt (differAt_of_writeContent hwritten).2
      rw [hstands.home]
      apply hplace
    · use (Cycle.gives_run.of_runs hcycle result hending).2,
        Cycle.isFinite_durationMs_of_finished hcycle hending
      apply readText_ok_iff.mpr (readContent_of_writeContent hwritten)

/-- Mutations with different results have their turns, each of which stores its result for good, and
nothing else is done to JSON files. -/
theorem stands_of_turns (hisolation : options.isolation = .inProcess)
    (hwrite : ∀ turn ∈ turns,
      ∃ d₁, d.write (Store.resultPath options.outputDir turn.1.id) "" = .ok d₁)
    (hdistinct : turns.Pairwise fun turn turn' =>
      place d.home (Store.resultPath options.outputDir turn.1.id)
        ≠ place d.home (Store.resultPath options.outputDir turn'.1.id))
    (hfinished : ∀ turn ∈ turns, ∃ result, turn.2 = .finished result)
    (h : Turns World.inert parser options turns d events d') :
  Stands (ending ".json" \ resultPlaces d.home options.outputDir (turns.map (·.1))) d d'
    ∧ ∀ m result, (m, .finished result) ∈ turns →
      result.line = m.line ∧ result.durationMs.isFinite = true
      ∧ d'.readText (Store.resultPath options.outputDir m.id)
        = .ok ((Record.ofResult result).pretty ++ "\n")
  := by
  induction h with
  | nil =>
    use Stands.refl _ _
    simp
  | idle hidle hanswer _ ih =>
    cases hidle with
    | clock =>
      obtain ⟨-, rfl⟩ := hanswer
      exact ih hwrite hdistinct hfinished
    | isInterrupted | print | identify =>
      cases hanswer
      exact ih hwrite hdistinct hfinished
  | @turn m ending turns _ _ d d₁ d₂ hturn _ ih =>
    obtain ⟨hfirst, hothers⟩ := List.pairwise_cons.mp hdistinct
    obtain ⟨hwritten, hwritable⟩ := List.forall_mem_cons.mp hwrite
    obtain ⟨⟨result, hresult⟩, hresults⟩ := List.forall_mem_cons.mp hfinished
    obtain rfl : ending = .finished result := hresult
    obtain ⟨hstands, hline, htime, hread⟩ := runs_runOne_stands hisolation hwritten hturn
    rw [← hstands.home] at hothers
    obtain ⟨hrest, hheld⟩ := ih (fun turn hturn => hstands.exists_write (hwritable turn hturn) "")
      hothers hresults
    rw [hstands.home] at hrest
    constructor
    · apply (hstands.mono _).trans (hrest.mono _)
      · apply Set.sdiff_subset_sdiff_right
        rintro l ⟨m', hm', hl⟩
        rw [List.mem_singleton.mp hm'] at hl
        exact ⟨m, List.mem_cons_self, hl⟩
      · apply Set.sdiff_subset_sdiff_right
        rintro l ⟨m', hm', hl⟩
        exact ⟨m', List.mem_cons_of_mem _ hm', hl⟩
    · intro m' result' hmem
      obtain heq | hmem := List.mem_cons.mp hmem
      · cases heq
        use hline, htime
        apply (hrest.readText_iff _).mpr hread
        rw [hstands.home]
        use place_resultPath_mem_ending _ _ _
        rintro ⟨m', hm', heq⟩
        obtain ⟨turn, hturn, rfl⟩ := List.mem_map.mp hm'
        apply hfirst turn hturn heq
      · apply hheld m' result' hmem

/-! ### Collecting the results of a batch -/

/-- The result of a numbered mutation is stored in the directory under the id. -/
theorem place_resultPath {id : String} (hid : ∃ n : Nat, id = s!"M{n}") (home : Location) :
  place home (Store.resultPath outputDir id) = place home outputDir ++ [id ++ ".json"]
  := by
  obtain ⟨n, rfl⟩ := hid
  have hslash := Store.slash_not_mem_numbered n
  have hstep : ∀ l, step l (s!"M{n}" ++ ".json") = l ++ [s!"M{n}" ++ ".json"] := by
    have hlong : ∀ other : String, other.length < 5 → s!"M{n}" ++ ".json" ≠ other := by
      rintro _ hlength rfl
      rw [String.length_append] at hlength
      have hjson : ".json".length = 5 := rfl
      omega
    intro l
    rw [step, if_neg (hlong "." (by decide)), if_neg (hlong ".." (by decide))]
  rw [Store.resultPath_numbered, place, place, start, start, Path.isAbsolute_join hslash,
    Path.names_join (by simp) hslash, List.foldl_append, List.foldl_cons, List.foldl_nil, hstep]

/-- A directory can take the results of some mutations and holds no other results. -/
structure Ready (outputDir : String) (mutations : List Mutation) (d : Disk) : Prop where
  writable : ∀ m ∈ mutations, ∃ d', d.write (Store.resultPath outputDir m.id) "" = .ok d'
  alone : ∀ name, ".json".toList <:+ name.toList → (∀ m ∈ mutations, name ≠ m.id ++ ".json") →
    Store.resultAt? d (place d.home outputDir ++ [name]) = none

/-- After their turns, numbered mutations have their results in the directory, the time of each is
read, and the directory holds no others. -/
theorem collected_perm_of_turns {pattern : String} {paths : List String}
    (hisolation : options.isolation = .inProcess)
    (hnumbered : ∀ turn ∈ turns, ∃ n : Nat, turn.1.id = s!"M{n}")
    (hdistinct : (turns.map (·.1.id)).Nodup)
    (hlines : ∀ turn ∈ turns, turn.1.line ≤ Text.maxWord)
    (hready : Ready options.outputDir (turns.map (·.1)) d)
    (hfinished : ∀ turn ∈ turns, ∃ result, turn.2 = .finished result)
    (h : Turns World.inert parser options turns d events d')
    (hlists : Glob.Lists pattern options.outputDir d' paths) :
  (paths.filterMap (Store.result? d')).Perm
      (turns.filterMap fun turn => turn.2.result?.bind TestResult.reread?)
    ∧ ∀ m result, (m, .finished result) ∈ turns → result.reread?.isSome
  := by
  have hplace : ∀ {home turn}, turn ∈ turns →
      place home (Store.resultPath options.outputDir turn.1.id)
        = place home options.outputDir ++ [turn.1.id ++ ".json"] := fun hturn =>
    place_resultPath (hnumbered _ hturn) _
  have hplaces : turns.Pairwise fun turn turn' =>
      place d.home (Store.resultPath options.outputDir turn.1.id)
        ≠ place d.home (Store.resultPath options.outputDir turn'.1.id) := by
    rw [List.Nodup, List.pairwise_map] at hdistinct
    apply hdistinct.imp_of_mem
    intro turn turn' hturn hturn' hne heq
    rw [hplace hturn, hplace hturn'] at heq
    apply hne
    simpa using heq
  obtain ⟨hstands, hheld⟩ := stands_of_turns hisolation
    (fun turn hturn => hready.writable turn.1 (List.mem_map_of_mem hturn)) hplaces hfinished h
  refine ⟨?_, fun m result hmem => TestResult.isSome_reread? (hheld m result hmem).2.1⟩
  -- Each of the files that were written is where its name says.
  have hfile : ∀ turn ∈ turns, ∃ result, turn.2 = .finished result
      ∧ d'.locate (Store.resultPath options.outputDir turn.1.id)
        = .ok (.name (place d'.home options.outputDir ++ [turn.1.id ++ ".json"]) false)
      ∧ (d'.lookup? (place d'.home options.outputDir ++ [turn.1.id ++ ".json"])).isSome
      ∧ Store.resultAt? d' (place d'.home options.outputDir ++ [turn.1.id ++ ".json"])
        = result.reread? := by
    intro turn hturn
    obtain ⟨result, hresult⟩ := hfinished turn hturn
    obtain ⟨hline, -, hread⟩ := hheld turn.1 result (hresult ▸ hturn)
    obtain ⟨l, hlocate, hl⟩ := readContent_ok_iff.mp (readText_ok_iff.mp hread)
    have hl' := (locate_name hlocate).1
    rw [hplace hturn] at hl'
    subst hl'
    use result, hresult, hlocate
    constructor
    · rw [hl]
      rfl
    · rw [← Store.result?_of_locate hlocate]
      apply Store.result?_of_readText (hline ▸ hlines turn hturn) hread
  have hperm := Store.filterMap_result?_perm hlists (turns.map (·.1.id ++ ".json")) ?_ ?_ ?_
  · rw [List.filterMap_map] at hperm
    apply hperm.trans
    apply List.Perm.of_eq
    apply List.filterMap_congr
    intro turn hturn
    obtain ⟨result, hresult, -, -, hheld⟩ := hfile turn hturn
    rw [Function.comp_apply, hheld, hresult]
    rfl
  · have hnames := hdistinct.map (f := (· ++ ".json")) fun id id' heq => by simpa using heq
    rw [List.map_map] at hnames
    apply hnames
  · intro name hname
    obtain ⟨turn, hturn, rfl⟩ := List.mem_map.mp hname
    obtain ⟨-, -, -, hsome, -⟩ := hfile turn hturn
    use by simp
  · intro name htail hnot
    have hname : ∀ turn ∈ turns, name ≠ turn.1.id ++ ".json" := by
      rintro turn hturn rfl
      exact hnot (List.mem_map_of_mem hturn)
    have hsame : d'.lookup? (place d.home options.outputDir ++ [name])
        = d.lookup? (place d.home options.outputDir ++ [name]) := by
      apply hstands.lookup?
      use ⟨name, by simp, htail⟩
      rintro ⟨m, hm, heq⟩
      obtain ⟨turn, hturn, rfl⟩ := List.mem_map.mp hm
      rw [hplace hturn] at heq
      apply hname turn hturn
      simpa using heq
    rw [hstands.home, Store.resultAt?, hsame]
    apply hready.alone name htail
    intro m hm
    obtain ⟨turn, hturn, rfl⟩ := List.mem_map.mp hm
    apply hname turn hturn

/-- The ids of some mutations that a search gives are numbers, and each stands for one mutation. -/
theorem numbered_of_discover {file source : String} {language : Language} {scope : Scope}
    {catalog : List Mutation} (hcatalog : discover parser file language source scope = .ok catalog)
    (hsublist : mutations.Sublist catalog) :
  (∀ m ∈ mutations, ∃ n : Nat, m.id = s!"M{n}") ∧ (mutations.map (·.id)).Nodup
  := by
  have hids := map_id_of_discover hcatalog
  constructor
  · intro m hm
    have hmem := List.mem_map_of_mem (f := (·.id)) (hsublist.subset hm)
    rw [hids] at hmem
    obtain ⟨n, -, hn⟩ := List.mem_map.mp hmem
    exact ⟨n, hn.symm⟩
  · apply List.Nodup.sublist (hsublist.map _)
    rw [hids]
    apply List.nodup_range.map Mutation.id_injective

/-- The results of a batch of mutations that a search has given, if it was not interrupted, are what
is collected from the directory that they were stored in, each with the time that is read where its
own was written, and the report on them counts what the batch has counted. Only if there were no
mutations and there are no JSON files either it is said that nothing was found. -/
theorem collectResults_of_runs {file source : String} {language : Language} {scope : Scope}
    {catalog : List Mutation} {outcome : BatchOutcome} {paths : List String}
    (hcatalog : discover parser file language source scope = .ok catalog)
    (hsublist : mutations.Sublist catalog) (hlines : ∀ m ∈ mutations, m.line ≤ Text.maxWord)
    (hisolation : options.isolation = .inProcess)
    (hready : ∀ d₁, d.makeDirectories options.outputDir = .ok d₁ →
      Ready options.outputDir mutations d₁)
    (h : Runs World.inert (Batch.run parser mutations options) d events (.finished outcome) d')
    (hcomplete : outcome.interrupted = false)
    (hlists : Glob.Lists (options.outputDir ++ "/*.json") options.outputDir d' paths) :
  (mutations = [] ∧ paths = []
    ∧ (Store.collectResults (options.outputDir ++ "/*.json")).run Disk.serve d'
      = (.error (.noMatches (options.outputDir ++ "/*.json")), d'))
  ∨ ∃ collected, (Store.collectResults (options.outputDir ++ "/*.json")).run Disk.serve d'
      = (.ok collected, d')
    ∧ (collected.map some).Perm (outcome.results.map TestResult.reread?)
    ∧ (aggregate collected).tally = outcome.tally
  := by
  obtain ⟨hnumbered, hdistinct⟩ := numbered_of_discover hcatalog hsublist
  obtain ⟨turns, d₁, rest, hmake, hturns, rfl, hresults⟩ := exists_turns_of_complete h hcomplete
  have hmake : d.makeDirectories options.outputDir = .ok d₁ := by
    obtain ⟨-, hmake⟩ | ⟨-, _, ⟨⟩, -⟩ := Yields.of_commit hmake
    apply hmake
  have hfinished : ∀ turn ∈ turns, ∃ result, turn.2 = .finished result := by
    intro turn hturn
    have hmem := List.mem_map_of_mem (f := (·.2)) hturn
    rw [hresults] at hmem
    obtain ⟨result, -, hresult⟩ := List.mem_map.mp hmem
    exact ⟨result, hresult.symm⟩
  rw [List.map_map] at hdistinct
  rw [List.forall_mem_map] at hnumbered hlines
  obtain ⟨hperm, hread⟩ := collected_perm_of_turns hisolation hnumbered hdistinct hlines
    (hready d₁ hmake) hfinished hturns hlists
  have htimes : ∀ result ∈ outcome.results, result.reread?.isSome := by
    intro result hresult
    have hmem := List.mem_map_of_mem (f := CycleEnd.finished) hresult
    rw [← hresults] at hmem
    obtain ⟨⟨m, _⟩, hturn, rfl⟩ := List.mem_map.mp hmem
    apply hread m result hturn
  have hturned : turns.filterMap (fun turn => turn.2.result?.bind TestResult.reread?)
      = outcome.results.filterMap TestResult.reread? := by
    have hsnd : turns.filterMap (fun turn => turn.2.result?.bind TestResult.reread?)
        = (turns.map (·.2)).filterMap fun ending => ending.result?.bind TestResult.reread? := by
      rw [List.filterMap_map]
      rfl
    rw [hsnd, hresults, List.filterMap_map]
    rfl
  rw [hturned] at hperm
  have hcollected := hperm.map some
  have hjudged := hperm.map TestResult.judged
  rw [TestResult.map_some_filterMap_reread? htimes] at hcollected
  rw [TestResult.map_judged_filterMap_reread? htimes] at hjudged
  rw [Store.run_collectResults hlists]
  by_cases hpaths : paths = []
  · left
    subst hpaths
    have hnone : outcome.results = [] := by simpa using hcollected.nil_eq
    rw [hnone, List.map_nil, List.map_eq_nil_iff] at hresults
    subst hresults
    exact ⟨rfl, rfl, rfl⟩
  · right
    rw [if_neg hpaths]
    use paths.filterMap (Store.result? d'), rfl, hcollected
    rw [tally_aggregate]
    apply Tally.ofResults_perm hjudged

/-- A directory that can be made is ready if it is ready as it is made. -/
theorem ready_of_check
    (h : (d.makeDirectories outputDir).toOption.all (fun d₁ =>
      mutations.all (fun m => (d₁.write (Store.resultPath outputDir m.id) "").toOption.isSome)
        && d₁.entries.all fun e => e.1.dropLast ≠ place d₁.home outputDir
          || (Store.resultAt? d₁ e.1).isNone)) :
  ∀ d₁, d.makeDirectories outputDir = .ok d₁ → Ready outputDir mutations d₁
  := by
  intro d₁ hmake
  rw [hmake] at h
  simp only [Except.toOption, Option.all_some, Bool.and_eq_true, List.all_eq_true] at h
  constructor
  · intro m hm
    have hsome := h.1 m hm
    cases hwrite : d₁.write (Store.resultPath outputDir m.id) "" with
    | error e =>
      rw [hwrite] at hsome
      cases hsome
    | ok d₂ => use d₂
  · intro name _ _
    apply Store.resultAt?_eq_none
    intro e he hdirectory
    simpa [hdirectory] using h.2 e he

/-- The result of a batch of one mutation is collected, where a file that held no result was in its
place. -/
theorem collectResults_of_runs_chaining :
  let source := "if a < b < 1:\n return None, True\n"
  let parser : Parser := fun _ _ => .chaining
  let catalog := (discover parser "a.py" .python source ⟨none, none⟩).toOption.getD []
  let d := ((Disk.single "a.py" source).put ["home", "out"] .directory).put
    ["home", "out", "M0.json"] (.file (.text "\x7b"))
  let ran := (Batch.run parser (catalog.take 1) (.plain "out")).run Disk.serve d
  catalog.take 1 ≠ [] ∧ ∃ outcome collected, ran.1 = .finished outcome
    ∧ (Store.collectResults "out/*.json").run Disk.serve ran.2 = (.ok collected, ran.2)
    ∧ (collected.map some).Perm (outcome.results.map TestResult.reread?)
    ∧ (aggregate collected).tally = outcome.tally
  := by
  intro source parser catalog d ran
  have hcatalog : discover parser "a.py" .python source ⟨none, none⟩ = .ok catalog := by
    decide +kernel
  have hmutations : catalog.take 1 ≠ [] ∧ ∀ m ∈ catalog.take 1, m.line ≤ Text.maxWord := by
    decide +kernel
  have hready : ∀ d₁, d.makeDirectories "out" = .ok d₁ → Ready "out" (catalog.take 1) d₁ :=
    ready_of_check (by decide +kernel)
  have hfinished : ran.1.outcome?.map BatchOutcome.interrupted = some false := by decide +kernel
  have hpattern : "out" ++ "/*.json" = "out/*.json" := by decide
  have hlists : Glob.Lists ("out" ++ "/*.json") "out" ran.2 ["out/M0.json"] :=
    Store.lists_of_entries ["M0.json"] (by decide +kernel) (by decide +kernel) (by decide +kernel)
      (by decide +kernel) (by decide +kernel) (by decide +kernel)
  have hruns := (runs_run Disk.serve (Batch.run parser (catalog.take 1) (.plain "out")) d).mono
    World.inert_of_serve
  have hran : (Batch.run parser (catalog.take 1) (.plain "out")).run Disk.serve d = ran := rfl
  -- From here on the run is a variable, so that no step of the proof computes it.
  clear_value ran catalog
  obtain ⟨outcome, houtcome, hcomplete⟩ := Option.map_eq_some_iff.mp hfinished
  rw [BatchEnd.outcome?_eq_some_iff] at houtcome
  rw [hran, houtcome] at hruns
  use hmutations.1
  obtain ⟨hnil, -⟩ | ⟨collected, hcollected⟩ := collectResults_of_runs hcatalog
    (List.take_sublist 1 catalog) hmutations.2 rfl hready hruns hcomplete hlists
  · cases hmutations.1 hnil
  · rw [← hpattern]
    use outcome, collected, houtcome, hcollected.1, hcollected.2.1, hcollected.2.2

/-- The results of no mutations are not collected from a directory without JSON files. -/
theorem not_collected_empty :
  ¬∀ {parser : Parser} {options : BatchOptions} {file source : String} {language : Language}
    {scope : Scope} {catalog mutations : List Mutation} {d d' : Disk} {events : List Event}
    {outcome : BatchOutcome} {paths : List String},
    discover parser file language source scope = .ok catalog → mutations.Sublist catalog →
    (∀ m ∈ mutations, m.line ≤ Text.maxWord) → options.isolation = .inProcess →
    (∀ d₁, d.makeDirectories options.outputDir = .ok d₁ → Ready options.outputDir mutations d₁) →
    Runs World.inert (Batch.run parser mutations options) d events (.finished outcome) d' →
    outcome.interrupted = false →
    Glob.Lists (options.outputDir ++ "/*.json") options.outputDir d' paths →
    ∃ collected, (Store.collectResults (options.outputDir ++ "/*.json")).run Disk.serve d'
        = (.ok collected, d')
      ∧ (collected.map some).Perm (outcome.results.map TestResult.reread?)
      ∧ (aggregate collected).tally = outcome.tally
  := by
  intro h
  let d := Disk.single "a.go" "<"
  generalize hran : (Batch.run Parser.single [] (.plain "out")).run Disk.serve d = ran
  have hcatalog : ∃ catalog, discover Parser.single "a.go" .go "<" ⟨none, none⟩ = .ok catalog :=
    ⟨[], by decide +kernel⟩
  have hready : ∀ d₁, d.makeDirectories "out" = .ok d₁ → Ready "out" [] d₁ :=
    ready_of_check (by decide +kernel)
  have hfinished : ran.1.outcome?.map BatchOutcome.interrupted = some false := by
    rw [← hran]
    decide +kernel
  have hlists : Glob.Lists ("out" ++ "/*.json") "out" ran.2 [] := by
    rw [← hran]
    exact Store.lists_of_entries [] (by decide +kernel) (by decide +kernel) (by decide +kernel)
      (by decide +kernel) (by decide +kernel) (by decide +kernel)
  have hruns := (runs_run Disk.serve (Batch.run Parser.single [] (.plain "out")) d).mono
    World.inert_of_serve
  obtain ⟨catalog, hcatalog⟩ := hcatalog
  obtain ⟨outcome, houtcome, hcomplete⟩ := Option.map_eq_some_iff.mp hfinished
  rw [BatchEnd.outcome?_eq_some_iff] at houtcome
  rw [hran, houtcome] at hruns
  obtain ⟨collected, hcollected, -⟩ := h hcatalog (List.nil_sublist catalog) (by simp) rfl hready
    hruns hcomplete hlists
  cases (Store.run_collectResults hlists).symm.trans hcollected

end Batch

end MutationTesting
