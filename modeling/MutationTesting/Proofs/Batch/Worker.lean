import MutationTesting.Batch

/-!
# The worker of a batch

Between two mutations a worker is `Worker.Ready`: the results so far are in the first slots, and the
mutation after them is next. From there on it does with the mutations that are left what `runEach`
does (`work_eq`), which runs them one after the other and has neither positions nor slots.
-/

namespace MutationTesting.Batch

open Procedure

variable {parser : Parser} {options : BatchOptions} {mutations rest : List Mutation}
  {results : List TestResult} {worker : Worker}

/-- Runs the cycle of one mutation, and stores its result if it comes to one. -/
def runOne (parser : Parser) (m : Mutation) (options : BatchOptions) : Procedure CycleEnd := do
  match ← execute parser m options with
  | .finished result =>
    store m options result
    return .finished result
  | ending => return ending

/-- In the process of its batch a mutation has a cycle whose result is then stored. -/
theorem runOne_of_inProcess {m : Mutation} (h : options.isolation = .inProcess) :
  runOne parser m options = do
    let run ← Cycle.run parser m options.cycle
    match run.ending with
    | .finished result =>
      let _ ← Store.saveResult (Store.resultPath options.outputDir m.id) result
      return .finished result
    | ending => return ending
  := by
  simp only [runOne, execute, store, h, Procedure.bind_assoc]
  -- Which path it is makes no difference, and a variable keeps its text from being computed.
  generalize Store.resultPath options.outputDir m.id = path
  apply bind_congr
  intro run
  cases run.ending with
  | finished result => simp only [pure_bind']
  | unrestored failure => rfl
  | brokenDown message => rfl

/-- A process that a mutation has of its own stores the result itself. -/
theorem runOne_of_subprocess {m : Mutation} {program : Program} {catalog : String}
    {testCommand workdir : Option String}
    (h : options.isolation = .subprocess program catalog testCommand workdir) :
  runOne parser m options = runProcess m options program catalog testCommand workdir
  := by
  simp only [runOne, execute, store, h]
  refine Eq.trans (bind_congr ?_) (bind_done _)
  intro ending
  cases ending <;> rfl

/-- Runs mutations as long as each one comes to a result. `done` mutations of `total` have run
before. -/
def runEach (parser : Parser) (options : BatchOptions) (total done : Nat) :
    List Mutation → Procedure (Except Stop (List TestResult))
  | [] => do
    let _ ← Procedure.isInterrupted
    return .ok []
  | m :: mutations => do
    if ← Procedure.isInterrupted then return .ok []
    let _ ← LockKey.find m.file
    match ← runOne parser m options with
    | .unrestored failure => return .error (.unrestored failure)
    | .brokenDown _ => return .error .brokenDown
    | .finished result =>
      showProgress options (done + 1) total m result
      let rest ← runEach parser options total (done + 1) mutations
      return rest.map (result :: ·)

/-- The mutation that is next is the first of those that are left. -/
theorem getElem?_of_drop {m : Mutation} {n : Nat} (h : mutations.drop n = m :: rest) :
  mutations[n]? = some m ∧ mutations.drop (n + 1) = rest
  := by
  constructor
  · rw [← List.head?_drop, h]
    rfl
  · rw [← List.tail_drop, h, List.tail_cons]

namespace Worker

/-- A worker has got some results and goes on, with so many mutations left. -/
structure Ready (worker : Worker) (results : List TestResult) (left : Nat) : Prop where
  next_eq : worker.next = results.length
  completed_eq : worker.completed = results.length
  stop_eq : worker.stop = false
  fatal_eq : worker.fatal = none
  slots_eq : worker.slots = results.map some ++ .replicate left none

theorem ready_start (total : Nat) :
  (start total).Ready [] total
  := ⟨rfl, rfl, rfl, rfl, rfl⟩

/-- What a worker leaves that stops after some results are these. -/
theorem Ready.conclude_eq {worker' : Worker} {left : Nat} (h : worker.Ready results left)
    (hfatal : worker'.fatal = worker.fatal) (hslots : worker'.slots = worker.slots) :
  conclude (some worker') = (Except.ok []).map (results ++ ·)
  := by
  rw [conclude, hfatal, h.fatal_eq, hslots, h.slots_eq]
  simp [Except.map]

/-- The slot of the next mutation takes its result. -/
theorem set_slots {left : Nat} (result : TestResult)
    (hslots : worker.slots = results.map some ++ .replicate (left + 1) none) :
  worker.slots.set results.length (some result)
    = (results ++ [result]).map some ++ .replicate left none
  := by
  rw [hslots, List.set_append_right _ _ (by simp)]
  simp [List.replicate_succ]

end Worker

/-- A worker runs the mutations that are left one after the other. -/
theorem work_eq (hrest : mutations.drop results.length = rest)
    (h : worker.Ready results rest.length) :
  (do
    let worker ← work parser options mutations (rest.length + 1) worker
    return conclude worker)
    = do
      let ended ← runEach parser options mutations.length results.length rest
      return ended.map (results ++ ·)
  := by
  induction rest generalizing worker results with
  | nil =>
    have hnone : mutations[worker.next]? = none := by
      rw [h.next_eq, ← List.head?_drop, hrest]
      rfl
    simp only [work, pass, runEach, h.stop_eq, Procedure.bind_assoc, Bool.false_eq_true, if_false,
      hnone]
    apply bind_congr
    intro interrupted
    cases interrupted with
    | true => exact congrArg done (h.conclude_eq rfl rfl)
    | false => exact congrArg done (h.conclude_eq rfl rfl)
  | cons m rest ih =>
    obtain ⟨hm, hdrop⟩ := getElem?_of_drop hrest
    rw [← h.next_eq] at hm
    rw [work, pass, runEach, h.stop_eq]
    simp only [Procedure.bind_assoc, Bool.false_eq_true, if_false, hm]
    apply bind_congr
    intro interrupted
    cases interrupted with
    | true => exact congrArg done (h.conclude_eq rfl rfl)
    | false =>
      simp only [Bool.false_eq_true, if_false, Procedure.bind_assoc, runOne]
      apply bind_congr
      intro key
      apply bind_congr
      rintro (result | failure | message)
      · simp only [Procedure.bind_assoc, pure_bind', h.completed_eq, h.next_eq]
        apply bind_congr
        intro _
        apply bind_congr
        intro _
        -- The result is in its slot, so that the worker is ready for the mutation after this one.
        have hslots := Worker.set_slots result h.slots_eq
        have hlength : (results ++ [result]).length = results.length + 1 := List.length_append
        rw [← hlength] at hdrop ⊢
        refine Eq.trans (ih hdrop ?_) ?_
        · exact ⟨rfl, rfl, rfl, h.fatal_eq, hslots⟩
        · apply bind_congr
          rintro (stop | others)
          · rfl
          · exact congrArg done (congrArg Except.ok (List.append_cons ..).symm)
      · rfl
      · rfl

/-- The worker of a batch runs its mutations one after the other. -/
theorem runAll_eq (parser : Parser) (options : BatchOptions) (mutations : List Mutation) :
  runAll parser options mutations = runEach parser options mutations.length 0 mutations
  := by
  have hstart := Worker.ready_start mutations.length
  refine Eq.trans (work_eq rfl hstart) (Eq.trans ?_ (bind_done _))
  apply bind_congr
  rintro (stop | results)
  · rfl
  · rfl

end MutationTesting.Batch
