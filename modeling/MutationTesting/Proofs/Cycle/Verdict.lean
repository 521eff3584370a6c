import MutationTesting.Proofs.Cycle.Exclusion
import MutationTesting.Proofs.Cycle.Requests

/-!
# Verdicts

A cycle asks the test oracle at most once, and asks it exactly when its mutation was
`Mutated` into the file and the mutant is not `Spared` the tests. The file then holds the
mutant and the backup the text that it was made from, and the status of the result is what
the oracle said. `Conduct` tells how a cycle goes by what it asks for.
-/

namespace MutationTesting

open Disk Procedure

namespace Event

/-- A text has been written to a file. -/
abbrev wrote (file text : String) : Event := ⟨.file (.write file text), .ok ()⟩

/-- The oracle has been asked about a scope and has given an outcome. -/
abbrev consulted (options : CycleOptions) (outcome : Outcome) : Event :=
  ⟨.consult options.scope options.timeout, .ok outcome⟩

def isConsultation : Event → Bool
  | ⟨.consult _ _, _⟩ => true
  | _ => false

/-- Whether an event neither fills a file nor asks the oracle. -/
def isQuiet : Event → Bool
  | ⟨.file (.fill _ _), .ok _⟩ | ⟨.consult _ _, _⟩ => false
  | _ => true

@[simp] theorem isConsultation_file (operation : FileOperation) (a : operation.Answer) :
  isConsultation ⟨.file operation, a⟩ = false
  := rfl

@[simp] theorem isConsultation_clock (a : Duration) :
  isConsultation ⟨.clock, a⟩ = false
  := rfl

@[simp] theorem isConsultation_consult (scope : String) (limit : Duration)
    (a : Except String Outcome) :
  isConsultation ⟨.consult scope limit, a⟩ = true
  := rfl

variable {event : Event}

theorem isQuiet_of_isSettling (h : event.1.isSettling = true) :
  event.isQuiet = true
  := by
  unfold isQuiet
  split
  · cases h
  · cases h
  · rfl

theorem isConsultation_of_isQuiet (h : event.isQuiet = true) :
  event.isConsultation = false
  := by
  unfold isConsultation
  split
  · cases h
  · rfl

end Event

namespace Cycle

/-- In the course of a cycle a guard has saved the text of the file, and the mutation has been
made in it and written to the file. -/
structure Mutated (parser : Parser) (m : Mutation) (events : List Event)
    (saved mutated : String) : Prop where
  acquired : Acquired m.file events (.holding m.file saved)
  applied : m.apply parser saved = .ok mutated
  written : [.filled m.file saved, .wrote m.file mutated] <:+: events

/-- A mutant that does not parse counts as killed and is not tested. -/
structure Spared (parser : Parser) (m : Mutation) (options : CycleOptions)
    (mutated : String) : Prop where
  verify : options.verify = true
  invalid : ∃ e, m.verify parser mutated = .error e
  policy : options.invalidMutants = .assumeKilled

/-- A file holds the mutant of the text that it had before, and its backup holds that text. -/
structure Exposed (parser : Parser) (m : Mutation) (before d : Disk)
    (saved mutated : String) : Prop where
  original : before.readText m.file = .ok saved
  applied : m.apply parser saved = .ok mutated
  file : d.readText m.file = .ok mutated
  backup : d.readText (Backup.path m.file) = .ok saved

/-- The status of a cycle is the one that its events call for. -/
structure Judged (parser : Parser) (m : Mutation) (options : CycleOptions)
    (events : List Event) (status : Status) : Prop where
  asked : (∃ event ∈ events, event.isConsultation = true)
    ↔ ∃ saved mutated, Mutated parser m events saved mutated ∧ ¬Spared parser m options mutated
  survived : status = .survived ↔ ∃ output, .consulted options (.passed output) ∈ events
  killed : status = .killed ↔ (∃ output, .consulted options (.failed output) ∈ events)
    ∨ ∃ saved mutated, Mutated parser m events saved mutated ∧ Spared parser m options mutated
  timeout : status = .timeout ↔ ∃ output, .consulted options (.timedOut output) ∈ events
  error : status = .error ↔ ¬((∃ output, .consulted options (.passed output) ∈ events)
    ∨ (∃ output, .consulted options (.failed output) ∈ events)
    ∨ (∃ saved mutated, Mutated parser m events saved mutated ∧ Spared parser m options mutated)
    ∨ ∃ output, .consulted options (.timedOut output) ∈ events)

end Cycle

variable {σ : Type} {w : World σ} {s s' : σ} {events : List Event} {file : String}

/-- What settles things neither fills a file nor asks the oracle. -/
theorem Event.isQuiet_of_asks {α : Type} {p : Procedure α} {value : α}
    (h : p.Asks (·.isSettling = true)) (hruns : Runs w p s events value s') :
  ∀ event ∈ events, event.isQuiet = true
  := fun _ hmem => isQuiet_of_isSettling (h.of_mem hruns hmem)

/-- What a guard asks for to settle its file is quiet. -/
theorem Event.isQuiet_of_asks_settles {α : Type} {p : Procedure α} {value : α} {g : Guard}
    (h : p.Asks g.Settles) (hruns : Runs w p s events value s') :
  ∀ event ∈ events, event.isQuiet = true
  := isQuiet_of_asks (h.mono fun _ => Guard.Settles.isSettling) hruns

namespace Guard

@[simp] theorem holding_file (file saved : String) :
  (holding file saved).file = file
  := rfl

@[simp] theorem holding_saved (file saved : String) :
  (holding file saved).saved = saved
  := rfl

/-- A guard is got by reading the file, making the backup and filling it, and without one no
backup was filled. -/
theorem taken_of_runs {acquired : Except FileError Guard}
    (h : Runs w (Guard.acquire file) s events acquired s') :
  (∃ saved, acquired = .ok (.holding file saved)
    ∧ events = [.read file saved, .made file, .filled file saved])
    ∨ (∃ e, acquired = .error e) ∧ ∀ event ∈ events, event.isQuiet = true
  := by
  rw [acquire] at h
  obtain ⟨a, _, _, -, hrest, rfl⟩ := runs_request_iff.mp h
  cases a with
  | error e =>
    obtain ⟨rfl, rfl, -⟩ := runs_pure_iff.mp hrest
    simp [Event.isQuiet]
  | ok saved =>
    obtain ⟨a, _, _, -, hnext, rfl⟩ := runs_request_iff.mp hrest
    cases a with
    | error e =>
      obtain ⟨rfl, rfl, -⟩ := runs_pure_iff.mp hnext
      simp [Event.isQuiet]
    | ok =>
      obtain ⟨a, _, _, -, hlast, rfl⟩ := runs_request_iff.mp hnext
      cases a with
      | error e =>
        obtain ⟨_, _, _, -, hdone, rfl⟩ := runs_request_iff.mp hlast
        obtain ⟨rfl, rfl, -⟩ := runs_pure_iff.mp hdone
        simp [Event.isQuiet]
      | ok =>
        obtain ⟨rfl, rfl, -⟩ := runs_pure_iff.mp hlast
        left
        use saved, rfl

end Guard

/-! ### The conduct of a cycle -/

namespace Cycle

variable {parser : Parser} {m : Mutation} {options : CycleOptions} {mutated : String}

theorem verdictWithoutTests?_eq_none_iff :
  verdictWithoutTests? parser m mutated options = none ↔ ¬Spared parser m options mutated
  := by
  have hspared : Spared parser m options mutated ↔ options.verify = true
      ∧ (∃ e, m.verify parser mutated = .error e) ∧ options.invalidMutants = .assumeKilled :=
    ⟨fun ⟨h₁, h₂, h₃⟩ => ⟨h₁, h₂, h₃⟩, fun ⟨h₁, h₂, h₃⟩ => ⟨h₁, h₂, h₃⟩⟩
  rw [hspared, verdictWithoutTests?]
  cases m.verify parser mutated <;> simp

/-- How a mutation may be made under a guard and tested: what is asked on the way, and what
comes of it. -/
inductive Course (parser : Parser) (m : Mutation) (g : Guard) (options : CycleOptions) :
    List Event → Except String Finding × List CycleState → Prop where
  | unplanted {e : PlantingError} {finding : Finding} : m.apply parser g.saved = .error e →
      finding.status = .error → Course parser m g options [] (.ok finding, [])
  | unwritten {mutated : String} {e : FileError} {finding : Finding} :
      m.apply parser g.saved = .ok mutated → finding.status = .error →
      Course parser m g options [⟨.file (.write g.file mutated), .error e⟩] (.ok finding, [])
  | spared {mutated : String} {finding : Finding} : m.apply parser g.saved = .ok mutated →
      Spared parser m options mutated → finding.status = .killed →
      Course parser m g options [.wrote g.file mutated] (.ok finding, [.mutated])
  | brokenDown {mutated message : String} : m.apply parser g.saved = .ok mutated →
      ¬Spared parser m options mutated → Course parser m g options
        [.wrote g.file mutated, ⟨.consult options.scope options.timeout, .error message⟩]
        (.error message, [.mutated])
  | tested {mutated : String} {outcome : Outcome} {finding : Finding} :
      m.apply parser g.saved = .ok mutated → ¬Spared parser m options mutated →
      finding.status = statusOf outcome →
      Course parser m g options [.wrote g.file mutated, .consulted options outcome]
        (.ok finding, [.mutated, .tested])

theorem course_of_runs {g : Guard} {found : Except String Finding × List CycleState}
    (h : Runs w (mutateAndTest parser m g options) s events found s') :
  Course parser m g options events found
  := by
  rw [mutateAndTest] at h
  split at h
  · next e happly =>
    obtain ⟨rfl, rfl, -⟩ := runs_pure_iff.mp h
    apply Course.unplanted happly rfl
  · next mutated happly =>
    obtain ⟨a, _, _, -, hrest, rfl⟩ := runs_request_iff.mp h
    cases a with
    | error e =>
      obtain ⟨rfl, rfl, -⟩ := runs_pure_iff.mp hrest
      apply Course.unwritten happly rfl
    | ok =>
      simp only at hrest
      split at hrest
      · next hsome =>
        obtain ⟨rfl, rfl, -⟩ := runs_pure_iff.mp hrest
        apply Course.spared happly _ rfl
        by_contra hnot
        cases (verdictWithoutTests?_eq_none_iff.mpr hnot).symm.trans hsome
      · next hnone =>
        have hnot := verdictWithoutTests?_eq_none_iff.mp hnone
        obtain ⟨a, _, _, -, hnext, rfl⟩ := runs_request_iff.mp hrest
        cases a with
        | error message =>
          obtain ⟨rfl, rfl, -⟩ := runs_pure_iff.mp hnext
          apply Course.brokenDown happly hnot
        | ok outcome =>
          obtain ⟨rfl, rfl, -⟩ := runs_pure_iff.mp hnext
          apply Course.tested happly hnot rfl

/-- The events of a cycle that gets hold of its file, tests its mutation, and goes on after. -/
def held (start : Duration) (file saved : String) (testing after : List Event) : List Event :=
  [⟨.clock, start⟩, .read file saved, .made file] ++ .filled file saved :: (testing ++ after)

/-- How a cycle may go: what is asked on the way, and how it ends. -/
inductive Conduct (parser : Parser) (m : Mutation) (options : CycleOptions) :
    List Event → CycleRun → Prop where
  | unheld {events : List Event} {result : TestResult} :
      (∀ event ∈ events, event.isQuiet = true) → result.status = .error →
      Conduct parser m options events ⟨.finished result, [.start, .restored, .resultEmitted]⟩
  | brokenDown {start : Duration} {saved message : String} {testing after : List Event}
      {states : List CycleState} :
      Course parser m (.holding m.file saved) options testing (.error message, states) →
      (∀ event ∈ after, event.isQuiet = true) →
      Conduct parser m options (held start m.file saved testing after)
        ⟨.brokenDown message, [.start, .backedUp] ++ states⟩
  | unrestored {start : Duration} {saved : String} {testing after : List Event}
      {finding : Finding} {states : List CycleState} {failure : RestoreFailure} :
      Course parser m (.holding m.file saved) options testing (.ok finding, states) →
      (∀ event ∈ after, event.isQuiet = true) →
      Conduct parser m options (held start m.file saved testing after)
        ⟨.unrestored failure, [.start, .backedUp] ++ states⟩
  | finished {start : Duration} {saved : String} {testing after : List Event}
      {finding : Finding} {states : List CycleState} {result : TestResult} :
      Course parser m (.holding m.file saved) options testing (.ok finding, states) →
      (∀ event ∈ after, event.isQuiet = true) → result.status = finding.status →
      Conduct parser m options (held start m.file saved testing after)
        ⟨.finished result, [.start, .backedUp] ++ states ++ [.restored, .resultEmitted]⟩

theorem status_of_runs_report {finding : Finding} {start : Duration} {result : TestResult}
    (h : Runs w (report m finding start options) s events result s') :
  result.status = finding.status
  := by
  rw [report] at h
  obtain ⟨stop, _, _, -, hrest, -⟩ := runs_request_iff.mp h
  obtain ⟨-, rfl, -⟩ := runs_pure_iff.mp hrest
  rfl

theorem conduct_of_runs {run : CycleRun} (h : Runs w (Cycle.run parser m options) s events run s') :
  Conduct parser m options events run
  := by
  rw [Cycle.run] at h
  obtain ⟨start, _, _, -, hrest, rfl⟩ := runs_request_iff.mp h
  obtain ⟨taking, acquired, _, _, hacquire, hnext, rfl⟩ := runs_bind_iff.mp hrest
  obtain ⟨saved, rfl, rfl⟩ | ⟨⟨e, rfl⟩, hquiet⟩ := Guard.taken_of_runs hacquire
  · obtain ⟨testing, ⟨found, states⟩, _, _, htest, hlast, rfl⟩ := runs_bind_iff.mp hnext
    have hcourse := course_of_runs htest
    cases found with
    | error message =>
      obtain ⟨dropping, _, _, _, hdrop, hdone, rfl⟩ := runs_bind_iff.mp hlast
      obtain ⟨rfl, rfl, -⟩ := runs_pure_iff.mp hdone
      rw [List.append_nil]
      apply Conduct.brokenDown hcourse (Event.isQuiet_of_asks_settles Guard.asks_drop hdrop)
    | ok finding =>
      obtain ⟨restoring, ⟨restored, g⟩, _, _, hrestore, hend, rfl⟩ := runs_bind_iff.mp hlast
      have hrestoring := Event.isQuiet_of_asks_settles Guard.asks_restore hrestore
      cases restored with
      | error e =>
        obtain ⟨dropping, _, _, _, hdrop, hdone, rfl⟩ := runs_bind_iff.mp hend
        obtain ⟨rfl, rfl, -⟩ := runs_pure_iff.mp hdone
        rw [List.append_nil]
        apply Conduct.unrestored hcourse
        have hdropping := Event.isQuiet_of_asks_settles Guard.asks_drop hdrop
        exact List.forall_mem_append.mpr ⟨hrestoring, hdropping⟩
      | ok =>
        obtain ⟨reporting, result, _, _, hreport, hdone, rfl⟩ := runs_bind_iff.mp hend
        obtain ⟨rfl, rfl, -⟩ := runs_pure_iff.mp hdone
        rw [List.append_nil]
        apply Conduct.finished hcourse _ (status_of_runs_report hreport)
        have hreporting := Event.isQuiet_of_asks (asks_report (·.isSettling = true) rfl) hreport
        exact List.forall_mem_append.mpr ⟨hrestoring, hreporting⟩
  · obtain ⟨reporting, result, _, _, hreport, hdone, rfl⟩ := runs_bind_iff.mp hnext
    obtain ⟨rfl, rfl, -⟩ := runs_pure_iff.mp hdone
    rw [List.append_nil]
    apply Conduct.unheld
    · have hreporting := Event.isQuiet_of_asks (asks_report (·.isSettling = true) rfl) hreport
      exact List.forall_mem_cons.mpr ⟨rfl, List.forall_mem_append.mpr ⟨hquiet, hreporting⟩⟩
    · rw [status_of_runs_report hreport]
      rfl

/-! ### What the conduct of a cycle tells -/

section

variable {testing after : List Event} {found : Except String Finding × List CycleState}
  {saved : String} {start : Duration}

theorem Course.states {g : Guard} (h : Course parser m g options testing found) :
  found.2 = [] ∨ found.2 = [.mutated] ∨ found.2 = [.mutated, .tested]
  := by
  cases h <;> simp

/-- The states of a cycle come in their order. -/
theorem Conduct.ascending {run : CycleRun} (h : Conduct parser m options events run) :
  run.states.Pairwise fun state next => state.rank < next.rank
  := by
  cases h with
  | unheld => simp [CycleState.rank]
  | brokenDown hcourse =>
    obtain rfl | rfl | rfl := hcourse.states <;> simp [CycleState.rank]
  | unrestored hcourse =>
    obtain rfl | rfl | rfl := hcourse.states <;> simp [CycleState.rank]
  | finished hcourse =>
    obtain rfl | rfl | rfl := hcourse.states <;> simp [CycleState.rank]

theorem countP_isConsultation_of_quiet (h : ∀ event ∈ events, event.isQuiet = true) :
  events.countP Event.isConsultation = 0
  := by
  apply List.countP_eq_zero.mpr
  intro event hmem
  simp [Event.isConsultation_of_isQuiet (h event hmem)]

theorem Course.countP_le_one {g : Guard} (h : Course parser m g options testing found) :
  testing.countP Event.isConsultation ≤ 1
  := by
  cases h <;> simp [List.countP_cons]

/-- A cycle asks the oracle at most once. -/
theorem Conduct.countP_le_one {run : CycleRun} (h : Conduct parser m options events run) :
  events.countP Event.isConsultation ≤ 1
  := by
  have hheld : ∀ {start saved testing after found},
      Course parser m (.holding m.file saved) options testing found →
      (∀ event ∈ after, event.isQuiet = true) →
      (held start m.file saved testing after).countP Event.isConsultation ≤ 1 := by
    intro start saved testing after found hcourse hafter
    simpa [held, countP_isConsultation_of_quiet hafter]
      using hcourse.countP_le_one
  cases h with
  | unheld hquiet => simp [countP_isConsultation_of_quiet hquiet]
  | brokenDown hcourse hafter => apply hheld hcourse hafter
  | unrestored hcourse hafter => apply hheld hcourse hafter
  | finished hcourse hafter => apply hheld hcourse hafter

/-- A backup that is filled is not filled again. -/
theorem Course.filled_notMem {g : Guard} (h : Course parser m g options testing found)
    (hafter : ∀ event ∈ after, event.isQuiet = true) :
  .filled file saved ∉ testing ++ after
  := by
  intro hmem
  obtain hmem | hmem := List.mem_append.mp hmem
  · cases h <;> simp at hmem
  · cases hafter _ hmem

/-- Under a guard a mutation is made in the text that the guard has saved, if its first request
writes a mutant. -/
theorem Course.mutated_iff {saved' : String}
    (h : Course parser m (.holding m.file saved) options testing found)
    (hafter : ∀ event ∈ after, event.isQuiet = true) :
  Mutated parser m (held start m.file saved testing after) saved' mutated
    ↔ saved' = saved ∧ m.apply parser saved = .ok mutated
      ∧ testing.head? = some (.wrote m.file mutated)
  := by
  constructor
  · rintro ⟨-, happly, before, rest, heq⟩
    have hopening : .filled m.file saved' ∉
        ([⟨.clock, start⟩, .read m.file saved, .made m.file] : List Event) := by simp
    rw [held, List.append_assoc, List.cons_append, eq_comm,
      List.append_cons_inj_of_notMem hopening (h.filled_notMem hafter)] at heq
    obtain ⟨-, hsaved, hrest⟩ := heq
    obtain rfl : saved' = saved := by simpa using hsaved.symm
    use rfl, happly
    cases h with
    | unplanted herror => cases happly.symm.trans herror
    | unwritten | spared | brokenDown | tested => simpa using congrArg List.head? hrest
  · rintro ⟨rfl, happly, hhead⟩
    obtain ⟨rest, rfl⟩ := List.head?_eq_some_iff.mp hhead
    constructor
    · apply acquired_iff.mpr
      use saved', rfl, [⟨.clock, start⟩], .wrote m.file mutated :: rest ++ after
      simp [held]
    · apply happly
    · use [⟨.clock, start⟩, .read m.file saved', .made m.file], rest ++ after
      simp [held]

/-- Under a guard the oracle is only asked about the mutant. -/
theorem mem_held_iff {event : Event} (hafter : ∀ event ∈ after, event.isQuiet = true)
    (hevent : event.isConsultation = true) :
  event ∈ held start file saved testing after ↔ event ∈ testing
  := by
  have hnot : event ∉ after := by
    intro hmem
    cases hevent.symm.trans (Event.isConsultation_of_isQuiet (hafter event hmem))
  simp only [held, List.mem_append, List.mem_cons, List.not_mem_nil, or_false]
  constructor
  · rintro ((rfl | rfl | rfl) | rfl | hmem | hmem)
    · cases hevent
    · cases hevent
    · cases hevent
    · cases hevent
    · apply hmem
    · contradiction
  · intro hmem
    simp [hmem]

/-- The status of what is found under a guard is the one that is called for. -/
theorem Course.judged {finding : Finding} {states : List CycleState}
    (h : Course parser m (.holding m.file saved) options testing (.ok finding, states))
    (hafter : ∀ event ∈ after, event.isQuiet = true) :
  Judged parser m options (held start m.file saved testing after) finding.status
  := by
  have hasked : (∃ event ∈ held start m.file saved testing after, event.isConsultation = true)
      ↔ ∃ event ∈ testing, event.isConsultation = true := by
    apply exists_congr
    intro event
    apply and_congr_left (mem_held_iff hafter)
  have hconsulted : ∀ outcome, .consulted options outcome ∈ held start m.file saved testing after
      ↔ .consulted options outcome ∈ testing := by
    intro outcome
    apply mem_held_iff hafter rfl
  have hmutated : ∀ saved' mutated,
      Mutated parser m (held start m.file saved testing after) saved' mutated
        ↔ saved' = saved ∧ m.apply parser saved = .ok mutated
          ∧ testing.head? = some (.wrote m.file mutated) := by
    intro saved' mutated
    apply h.mutated_iff hafter
  generalize held start m.file saved testing after = events at hasked hconsulted hmutated ⊢
  cases h with
  | unplanted happly hfinding =>
    rw [Guard.holding_saved] at happly
    constructor <;> simp [hasked, hconsulted, hmutated, happly, hfinding]
  | unwritten happly hfinding =>
    constructor <;> simp [hasked, hconsulted, hmutated, hfinding]
  | spared happly hspared hfinding =>
    rw [Guard.holding_saved] at happly
    constructor <;> simp [hasked, hconsulted, hmutated, happly, hfinding, hspared]
  | @tested mutated outcome _ happly hspared hfinding =>
    rw [Guard.holding_saved] at happly
    rw [hfinding]
    constructor <;> cases outcome <;>
      simp [hasked, hconsulted, hmutated, happly, hspared, statusOf]

end

/-- A cycle that ends with a result is judged by what it has asked for. -/
theorem Conduct.judged {run : CycleRun} {result : TestResult}
    (h : Conduct parser m options events run) (hresult : run.ending = .finished result) :
  Judged parser m options events result.status
  := by
  cases h with
  | brokenDown => cases hresult
  | unrestored => cases hresult
  | unheld hquiet hstatus =>
    cases hresult
    have hnever : ∀ event ∈ events, event.isConsultation = false :=
      fun event hmem => Event.isConsultation_of_isQuiet (hquiet event hmem)
    have hconsulted : ∀ outcome, .consulted options outcome ∉ events := by
      intro outcome hmem
      cases hnever _ hmem
    have hmutated : ∀ saved mutated, ¬Mutated parser m events saved mutated := by
      intro saved mutated hmutated
      have hmem := hmutated.written.subset List.mem_cons_self
      cases hquiet _ hmem
    constructor <;> simp_all
  | finished hcourse hafter hstatus =>
    cases hresult
    rw [hstatus]
    apply hcourse.judged hafter

/-! ### The disk that the oracle sees -/

end Cycle

variable {before d d' : Disk}

/-- A guard is got where the file and its backup hold what the guard has saved. -/
theorem Guard.readText_of_runs_acquire {g : Guard}
    (h : Runs World.faulty (Guard.acquire file) d events (.ok g) d') :
  ∃ saved, g = .holding file saved ∧ d.readText file = .ok saved
    ∧ d'.readText file = .ok saved ∧ d'.readText (Backup.path file) = .ok saved
  := by
  rw [acquire] at h
  obtain ⟨a, d₁, _, hread, hrest, rfl⟩ := runs_request_iff.mp h
  obtain ⟨rfl, htext⟩ := Yields.readText hread
  cases a with
  | error e => cases (runs_pure_iff.mp hrest).2.1
  | ok saved =>
    obtain ⟨name, hname⟩ := Backup.exists_endsIn (readText_ok_iff.mp (htext saved rfl))
    obtain ⟨a, d₂, _, hcreate, hnext, rfl⟩ := runs_request_iff.mp hrest
    cases a with
    | error e => cases (runs_pure_iff.mp hnext).2.1
    | ok =>
      obtain ⟨a, d₃, _, hfill, hlast, rfl⟩ := runs_request_iff.mp hnext
      cases a with
      | error e =>
        obtain ⟨_, _, _, -, hdone, -⟩ := runs_request_iff.mp hlast
        cases (runs_pure_iff.mp hdone).2.1
      | ok =>
        obtain ⟨-, hg, rfl⟩ := runs_pure_iff.mp hlast
        cases hg
        have hcreated := Backup.unchanged_of_endsIn hname (Yields.touched hcreate rfl)
        have hfilled := Backup.unchanged_of_endsIn hname (Yields.touched hfill rfl)
        have hempty := readContent_of_create (Yields.create_ok hcreate)
        use saved, rfl, htext saved rfl
        constructor
        · apply (hcreated.trans hfilled).readText_iff.mpr (htext saved rfl)
        · apply Yields.fill_ok hfill hempty

namespace Cycle

/-- An oracle is asked with the scope and the limit of a cycle, while the file holds the mutant
and the backup the text from before. -/
def AsksRightly (parser : Parser) (m : Mutation) (options : CycleOptions) (before d : Disk) :
    Event → Prop
  | ⟨.consult scope limit, _⟩ => scope = options.scope ∧ limit = options.timeout
    ∧ ∃ saved mutated, Exposed parser m before d saved mutated
  | _ => True

/-- What asks no oracle asks it rightly. -/
theorem asksRightly_of_asks {α : Type} {p : Procedure α} {Q : Request → Prop} (h : p.Asks Q)
    (hQ : ∀ request, Q request → request.isConsultation = false) :
  Ensures World.faulty Eq (fun d event _ => AsksRightly parser m options before d event)
    (fun _ _ => True) p d
  := by
  apply h.ensures _ trivial
  intro r d a d' hr _ _
  have hnot := hQ r hr
  cases r with
  | consult => cases hnot
  | file | launch | isInterrupted | clock | print => exact ⟨trivial, trivial⟩

/-- A guard is got without asking the oracle. -/
theorem ensures_acquire :
  Ensures World.faulty Eq (fun d event _ => AsksRightly parser m options before d event)
    (fun acquired d' => ∀ g, acquired = .ok g → ∃ saved, g = .holding file saved
      ∧ d.readText file = .ok saved ∧ d'.readText file = .ok saved
      ∧ d'.readText (Backup.path file) = .ok saved) (Guard.acquire file) d
  := by
  apply Ensures.of_runs
  · have hasks : (Guard.acquire file).Asks (·.isConsultation = false) :=
      Guard.asks_acquire rfl rfl (fun _ => rfl) rfl
    apply asksRightly_of_asks hasks fun _ => id
  · rintro events acquired d' hruns g rfl
    apply Guard.readText_of_runs_acquire hruns

/-- The oracle is asked while the file holds the mutant of what the guard has saved. -/
theorem ensures_mutateAndTest (htext : before.readText m.file = .ok saved)
    (hfile : d.readText m.file = .ok saved)
    (hbackup : d.readText (Backup.path m.file) = .ok saved) :
  Ensures World.faulty Eq (fun d event _ => AsksRightly parser m options before d event)
    (fun _ _ => True) (mutateAndTest parser m (.holding m.file saved) options) d
  := by
  obtain ⟨name, hname⟩ := Backup.exists_endsIn (readText_ok_iff.mp hfile)
  rw [mutateAndTest, Guard.holding_saved, Guard.holding_file]
  split
  · exact fun _ _ => trivial
  · next mutated happly =>
    apply Ensures.request
    rintro d₁ rfl a d₂ hwrite
    use trivial
    cases a with
    | error e => exact fun _ _ => trivial
    | ok =>
      have hmutated := readText_ok_iff.mpr (Yields.write_ok hwrite)
      have hkept := Backup.unchanged_path_of_endsIn hname (Yields.touched hwrite rfl)
      have hexposed : Exposed parser m before d₂ saved mutated :=
        ⟨htext, happly, hmutated, hkept.readText_iff.mpr hbackup⟩
      simp only
      split
      · exact fun _ _ => trivial
      · apply Ensures.request
        rintro d₃ rfl a d₄ -
        constructor
        · use rfl, rfl, saved, mutated
        · cases a <;> exact fun _ _ => trivial

/-- A cycle asks the oracle with its scope and its limit, while the file holds the mutant. -/
theorem ensures_run :
  Ensures World.faulty Eq (fun d event _ => AsksRightly parser m options before d event)
    (fun _ _ => True) (Cycle.run parser m options) before
  := by
  have hsettles : ∀ request : Request, request.isSettling = true →
      request.isConsultation = false := by
    intro request h
    cases request <;> trivial
  have hreport : ∀ {finding start} {f : TestResult → CycleRun}, (do
      let result ← report m finding start options
      return f result).Asks (·.isSettling = true) :=
    (asks_report (·.isSettling = true) rfl).bind fun _ => trivial
  have hdrop : ∀ {g : Guard} {f : Unit → CycleRun}, (do
      let result ← g.drop
      return f result).Asks (·.isSettling = true) :=
    (Guard.asks_drop.mono fun _ => Guard.Settles.isSettling).bind fun _ => trivial
  apply Ensures.request
  rintro d₁ hd₁ start d₂ hd₂
  obtain rfl : d₂ = before := hd₂.trans hd₁.symm
  use trivial
  apply Ensures.bind (fun _ => rfl)
  apply ensures_acquire.mono
  intro acquired d hacquired
  cases acquired with
  | error e => apply asksRightly_of_asks hreport hsettles
  | ok g =>
    obtain ⟨saved, rfl, htext, hfile, hbackup⟩ := hacquired g rfl
    apply Ensures.bind (fun _ => rfl)
    apply (ensures_mutateAndTest htext hfile hbackup).mono
    rintro ⟨found, states⟩ d₃ -
    apply asksRightly_of_asks _ hsettles
    cases found with
    | error message => apply hdrop
    | ok finding =>
      apply (Guard.asks_restore.mono fun _ => Guard.Settles.isSettling).bind
      rintro ⟨restored, g⟩
      cases restored with
      | error e => apply hdrop
      | ok => apply hreport

/-- The states of a cycle come in their order, and the oracle is asked at most once, with the
scope and the limit of the cycle, while the file holds the mutant of the text from before and
the backup that text. The status of a cycle that ends with a result is the one that is called
for by what was done. -/
theorem run_judges {after : Disk} {run : CycleRun}
    (h : Runs World.faulty (Cycle.run parser m options) before events run after) :
  run.states.Pairwise (fun state next => state.rank < next.rank)
    ∧ events.countP Event.isConsultation ≤ 1
    ∧ (∀ asked scope limit next d,
      Reaches World.faulty (Cycle.run parser m options) before asked
        (.ask (.consult scope limit) next) d →
      scope = options.scope ∧ limit = options.timeout
        ∧ ∃ saved mutated, Exposed parser m before d saved mutated)
    ∧ ∀ result, run.ending = .finished result → Judged parser m options events result.status
  := by
  have hconduct := conduct_of_runs h
  use hconduct.ascending, hconduct.countP_le_one
  constructor
  · intro asked scope limit next d hreach
    have hensures : Ensures World.faulty Eq
        (fun d event _ => AsksRightly parser m options before d event) (fun _ _ => True)
        (.ask (.consult scope limit) next) d :=
      ensures_run.of_reaches (fun _ => rfl) hreach
    apply (hensures d rfl (.ok (.passed "")) d trivial).1
  · intro result hresult
    apply hconduct.judged hresult

/-- A mutant that passes the tests on a disk with nothing unforeseen has survived. -/
theorem run_judges_single :
  let p := Cycle.run Parser.single (.atStart "a.go" "<" ">") .plain
  let before := Disk.single "a.go" "<"
  (p.events Disk.serve before).countP Event.isConsultation = 1
    ∧ ∃ result, (p.run Disk.serve before).1.ending = .finished result ∧ result.status = .survived
      ∧ Judged Parser.single (.atStart "a.go" "<" ">") .plain (p.events Disk.serve before)
        result.status
  := by
  intro p before
  have hruns := (runs_run Disk.serve p before).mono World.faulty_of_serve
  have hsurvived : (p.run Disk.serve before).1.ending.result?.map (·.status) = some .survived := by
    decide +kernel
  obtain ⟨result, hresult, hstatus⟩ := Option.map_eq_some_iff.mp hsurvived
  have hfinished := CycleEnd.result?_eq_some_iff.mp hresult
  use by decide +kernel, result, hfinished, hstatus
  apply (run_judges hruns).2.2.2 result hfinished

end Cycle

end MutationTesting
