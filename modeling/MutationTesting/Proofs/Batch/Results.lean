import MutationTesting.Proofs.Batch.Independence
import MutationTesting.Proofs.Duration
import MutationTesting.Proofs.Safekeeping.Targets

/-!
# Results of processes

A batch whose cycles run in processes of their own takes each result from the file under which
the process was to store it. On a disk of `World.storing` it is known what processes have stored,
and a result is `Batch.Fresh` if it is what its own process has stored, or an error where it has
stored nothing, and if the file holds it in the end.
-/

namespace MutationTesting

open Disk Procedure

/-- A disk with the texts that processes have stored on it under some paths. -/
structure Storage where
  disk : Disk
  stored : String → Option String

namespace Storage

variable {path : String} {s s' s'' : Storage}

/-- A path finds what it has found, and nothing was stored under it. -/
structure Kept (path : String) (s s' : Storage) : Prop where
  unchanged : Unchanged path s.disk s'.disk
  stored : s'.stored path = s.stored path

/-- Under a path there is a text that was stored. -/
def Received (path : String) (s : Storage) : Prop :=
  ∃ text, s.stored path = some text ∧ s.disk.readText path = .ok text

theorem Kept.refl (path : String) (s : Storage) :
  Kept path s s
  := ⟨Unchanged.refl path s.disk, rfl⟩

theorem Kept.trans (h : Kept path s s') (h' : Kept path s' s'') :
  Kept path s s''
  := ⟨h.unchanged.trans h'.unchanged, h'.stored.trans h.stored⟩

theorem Received.of_kept (h : Received path s) (hkept : Kept path s s') :
  Received path s'
  := by
  obtain ⟨text, hstored, hread⟩ := h
  use text, hkept.stored.trans hstored
  apply hkept.unchanged.readText_iff.mpr hread

end Storage

/-- The path under which a process that tests one mutation is to store its result. -/
def Launch.output? (l : Launch) : Option String :=
  match l.args with
  | "test" :: "--catalog" :: _ :: "--id" :: _ :: "--output" :: path :: _ => some path
  | _ => none

/-- A disk on which operations do what they should, and on which a process may do anything, except
that of some paths it touches at most the one under which it is to store its result, and there it
stores a text or nothing. -/
def World.storing (paths : Set String) : World Storage
  | .file operation, s, a, s' => s.disk.perform operation = (a, s'.disk) ∧ s'.stored = s.stored
  | .launch l, s, _, s' => s'.disk.home = s.disk.home
    ∧ ∀ path ∈ paths, s.Kept path s' ∨ (l.output? = some path ∧ s'.Received path)
  | .consult _ _, s, _, s' => s'.disk.home = s.disk.home ∧ ∀ path ∈ paths, s.Kept path s'
  | .isInterrupted, s, _, s' | .clock, s, _, s' | .print _, s, _, s' => s' = s

/-- The result that a file holds. -/
def Store.result? (d : Disk) (path : String) : Option TestResult :=
  (d.readText path).toOption.bind (Record.parse? Record.result?)

namespace Store

variable {d d' : Disk} {path : String}

theorem result?_eq_some_iff {result : TestResult} :
  result? d path = some result
    ↔ ∃ text, d.readText path = .ok text ∧ Record.parse? Record.result? text = some result
  := by
  rw [result?]
  cases d.readText path <;> simp [Except.toOption]

theorem result?_of_unchanged (h : Unchanged path d d') :
  result? d' path = result? d path
  := by
  rw [result?, result?, h.toOption_readText]

/-! ### Where results are stored -/

/-- The result of a mutation with a number is stored under its id. -/
theorem resultPath_numbered (outputDir : String) (n : Nat) :
  resultPath outputDir s!"M{n}" = Path.join outputDir (s!"M{n}" ++ ".json")
  := by
  have hplain : ∀ c ∈ s!"M{n}".toList, isPlain c = true := by
    intro c hc
    have hc : c = 'M' ∨ c ∈ Nat.toDigits 10 n := by
      simpa [toString, Nat.repr_eq_ofList_toDigits] using hc
    obtain rfl | hc := hc
    · rfl
    · have hdigit := Text.isDigit_of_mem_toDigits hc
      rw [Text.isDigit, Bool.and_eq_true] at hdigit
      simp [isPlain, hdigit]
  have hsame : s!"M{n}".toList.map (fun c => if isPlain c then c else '_') = s!"M{n}".toList := by
    calc _ = s!"M{n}".toList.map id := List.map_congr_left fun c hc => if_pos (hplain c hc)
      _ = _ := List.map_id _
  rw [resultPath, hsame, String.ofList_toList]

theorem slash_not_mem_numbered (n : Nat) :
  '/' ∉ (s!"M{n}" ++ ".json").toList
  := by
  intro hmem
  have hmem : '/' ∈ Nat.toDigits 10 n := by
    simpa [toString, Nat.repr_eq_ofList_toDigits] using hmem
  cases Text.isDigit_of_mem_toDigits hmem

/-- Results of mutations with different numbers are stored under different paths. -/
theorem resultPath_inj {outputDir id id' : String} (hid : ∃ n : Nat, id = s!"M{n}")
    (hid' : ∃ n : Nat, id' = s!"M{n}")
    (h : resultPath outputDir id = resultPath outputDir id') :
  id = id'
  := by
  obtain ⟨n, rfl⟩ := hid
  obtain ⟨n', rfl⟩ := hid'
  have hnames := congrArg Disk.names h
  rw [resultPath_numbered, resultPath_numbered,
    Path.names_join (by simp) (slash_not_mem_numbered n),
    Path.names_join (by simp) (slash_not_mem_numbered n')] at hnames
  have hname := (List.append_inj' hnames rfl).2
  simpa using hname

theorem suffix_resultPath (outputDir id : String) :
  ".json".toList <:+ (resultPath outputDir id).toList
  := by
  apply List.IsSuffix.trans _ (Path.suffix_join outputDir _)
  rw [String.toList_append]
  apply List.suffix_append

/-- A result is not stored where something else ends in another way. -/
theorem place_resultPath_ne {other name : String} {tail : List Char} (hother : EndsIn other name)
    (hsuffix : tail <:+ name.toList) (hne : ¬tail <:+ ".json".toList)
    (hne' : ¬".json".toList <:+ tail) (home : Location) (outputDir id : String) :
  place home (resultPath outputDir id) ≠ place home other
  := by
  obtain ⟨name', hname', hsuffix'⟩ := exists_endsIn_of_suffix (by decide) (by decide) (by decide)
    (suffix_resultPath outputDir id)
  apply hname'.place_ne hother
  rintro rfl
  obtain h | h := List.suffix_or_suffix_of_suffix hsuffix hsuffix'
  · apply hne h
  · apply hne' h

end Store

/-- The paths under which the results of some mutations are stored. -/
def Batch.resultPaths (outputDir : String) (mutations : List Mutation) : Set String :=
  {path | ∃ m ∈ mutations, path = Store.resultPath outputDir m.id}

/-- A request leaves what some paths find, and what was stored under them, as it was. -/
def Request.Leaves (paths : Set String) (home : Location) (request : Request) : Prop :=
  ∀ ⦃s a s'⦄, World.storing paths request s a s' → s.disk.home = home →
    s'.disk.home = home ∧ ∀ path ∈ paths, s.Kept path s'

namespace Request

variable {paths : Set String} {home : Location} {operation : FileOperation} {target : String}

theorem leaves_of_isReading (h : operation.isReading = true) :
  (Request.file operation).Leaves paths home
  := by
  rintro ⟨d, stored⟩ a ⟨d', stored'⟩ ⟨hperform, hstored⟩ hhome
  have hdisk : d' = d := by
    cases operation <;> cases h <;> cases hperform <;> rfl
  subst hdisk hstored
  use hhome
  exact fun path _ => Storage.Kept.refl path _

theorem leaves_of_target? (htarget : operation.target? = some target)
    (hparted : ∀ path ∈ paths, Parted home path target) :
  (Request.file operation).Leaves paths home
  := by
  rintro s a s' ⟨hperform, hstored⟩ rfl
  have htouched : Touched target s.disk s'.disk := Yields.touched (.inl hperform) htarget
  use htouched.home
  intro path hpath
  use htouched.unchanged_of_parted (hparted path hpath)
  rw [hstored]

end Request

theorem Procedure.Asks.leaves {α : Type} {p : Procedure α} {paths : Set String} {home : Location}
    {s s' : Storage} {events : List Event} {value : α} (h : p.Asks (Request.Leaves paths home))
    (hhome : s.disk.home = home) (hruns : Runs (World.storing paths) p s events value s') :
  s'.disk.home = home ∧ ∀ path ∈ paths, s.Kept path s'
  := by
  induction p generalizing s events with
  | done =>
    obtain ⟨-, -, rfl⟩ := runs_done_iff.mp hruns
    use hhome
    exact fun path _ => Storage.Kept.refl path _
  | ask request next ih =>
    obtain ⟨a, s₁, rest, hanswer, hrest, -⟩ := runs_ask_iff.mp hruns
    obtain ⟨hhome₁, hkept₁⟩ := h.1 hanswer hhome
    obtain ⟨hhome', hkept'⟩ := ih a (h.2 a) hhome₁ hrest
    use hhome'
    exact fun path hpath => (hkept₁ path hpath).trans (hkept' path hpath)

namespace Batch

variable {paths : Set String} {home : Location} {all mutations : List Mutation} {m : Mutation}
  {options : BatchOptions} {s s' : Storage} {d : Disk} {events : List Event} {parser : Parser}
  {program : Program} {catalog detail outputDir : String} {testCommand workdir : Option String}
  {result : TestResult} {turns : List (Mutation × CycleEnd)}

/-- What is taken for the result of a mutation whose process has stored none. -/
def missing (m : Mutation) (options : BatchOptions) (detail : String) : TestResult :=
  { TestResult.blank m .error with
    testOutput := Text.excerpt detail options.cycle.maxOutputBytes }

/-- The result of a mutation is the one that its file holds, or the file holds none and the result
says that it is missing. -/
def Collects (options : BatchOptions) (d : Disk) (m : Mutation) (result : TestResult) : Prop :=
  Store.result? d (Store.resultPath options.outputDir m.id) = some result
    ∨ (Store.result? d (Store.resultPath options.outputDir m.id) = none
      ∧ ∃ detail, result = missing m options detail)

/-- The result of a mutation is the one that its process has stored, or says that it is missing if
the process has stored nothing. -/
def Own (options : BatchOptions) (s : Storage) (m : Mutation) (result : TestResult) : Prop :=
  match s.stored (Store.resultPath options.outputDir m.id) with
  | some text => Record.parse? Record.result? text = some result
  | none => ∃ detail, result = missing m options detail

/-- The result of a mutation is its own and one of the mutation, and its file holds it. -/
structure Fresh (options : BatchOptions) (s : Storage) (m : Mutation) (result : TestResult) :
    Prop where
  own : Own options s m result
  id : result.mutationId = m.id
  persisted : Store.result? s.disk (Store.resultPath options.outputDir m.id) = some result

theorem Collects.of_kept (h : Collects options s.disk m result)
    (hkept : s.Kept (Store.resultPath options.outputDir m.id) s') :
  Collects options s'.disk m result
  := by
  rw [Collects, Store.result?_of_unchanged hkept.unchanged]
  apply h

/-- A result that was collected is fresh only if it was stored as one of the mutation, or if nothing
was stored and the file happens to hold that it is missing. -/
theorem fresh_iff (hcollects : Collects options s.disk m result)
    (hread : ∀ text, s.stored (Store.resultPath options.outputDir m.id) = some text →
      s.disk.readText (Store.resultPath options.outputDir m.id) = .ok text) :
  Fresh options s m result
    ↔ (∃ text own, s.stored (Store.resultPath options.outputDir m.id) = some text
        ∧ Record.parse? Record.result? text = some own ∧ own.mutationId = m.id)
      ∨ (s.stored (Store.resultPath options.outputDir m.id) = none
        ∧ Store.result? s.disk (Store.resultPath options.outputDir m.id) = some result
        ∧ ∃ detail, result = missing m options detail)
  := by
  constructor
  · rintro ⟨hown, hid, hpersisted⟩
    rw [Own] at hown
    cases hstored : s.stored (Store.resultPath options.outputDir m.id) with
    | some text =>
      rw [hstored] at hown
      left
      use text, result, rfl, hown
    | none =>
      rw [hstored] at hown
      right
      exact ⟨rfl, hpersisted, hown⟩
  · rintro (⟨text, own, hstored, hparse, hid⟩ | ⟨hstored, hpersisted, detail, rfl⟩)
    · have hheld : Store.result? s.disk (Store.resultPath options.outputDir m.id) = some own :=
        Store.result?_eq_some_iff.mpr ⟨text, hread text hstored, hparse⟩
      rw [Collects, hheld] at hcollects
      obtain heq | ⟨heq, -⟩ := hcollects
      · cases heq
        constructor
        · rw [Own, hstored]
          apply hparse
        · apply hid
        · apply hheld
      · cases heq
    · constructor
      · rw [Own, hstored]
        use detail
      · rfl
      · apply hpersisted

/-! ### The turn of a mutation -/

/-- No file of some mutations is one under which a result is stored. -/
def Aside (home : Location) (outputDir : String) (mutations : List Mutation) : Prop :=
  ∀ path ∈ resultPaths outputDir mutations, ∀ m ∈ mutations, Parted home path m.file

/-- Restoring a file after its process was stopped leaves all stored results alone. -/
theorem asks_recover (haside : Aside home options.outputDir all) (hm : m ∈ all) :
  (recover m).Asks (Request.Leaves (resultPaths options.outputDir all) home)
  := by
  rw [recover, Backup.interrupted?, Procedure.bind_assoc]
  refine Asks.request (Request.leaves_of_isReading rfl) fun a => ?_
  cases a with
  | false => trivial
  | true =>
    have hrestore : (Backup.restore m.file (Backup.path m.file)).Asks
        (Request.Leaves (resultPaths options.outputDir all) home) := by
      apply Backup.asks_restore
      · exact Request.leaves_of_target? rfl fun path hpath => haside path hpath m hm
      · apply Request.leaves_of_target? rfl
        rintro _ ⟨m', -, rfl⟩ - -
        obtain ⟨name, hname, hsuffix⟩ := exists_endsIn_of_suffix (by decide) (by decide) (by decide)
          (Backup.suffix_path m.file)
        apply Store.place_resultPath_ne hname hsuffix (by decide) (by decide)
      · exact fun _ => Request.leaves_of_isReading rfl
      · intro compiled hclears
        apply Request.leaves_of_target? rfl
        rintro _ ⟨m', -, rfl⟩ - -
        obtain ⟨name, hname, hsuffix⟩ := hclears.isCompiled.endsIn
        apply Store.place_resultPath_ne hname hsuffix (by decide) (by decide)
    exact hrestore.bind fun _ => Asks.pure _

theorem runs_processDetail {completion : Except FileError Completion}
    (haside : Aside s.disk.home options.outputDir all) (hm : m ∈ all)
    (h : Runs (World.storing (resultPaths options.outputDir all))
      (processDetail m program completion) s events detail s') :
  s'.disk.home = s.disk.home ∧ ∀ path ∈ resultPaths options.outputDir all, s.Kept path s'
  := by
  apply Asks.leaves _ rfl h
  rcases completion with e | _ | _ | _
  · trivial
  · trivial
  · exact (asks_recover haside hm).bind fun _ => Asks.pure _
  · exact (asks_recover haside hm).bind fun _ => Asks.pure _

theorem runs_collectResult
    (h : Runs (World.storing paths) (collectResult m options detail) s events result s') :
  s' = s ∧ Collects options s.disk m result
  := by
  rw [collectResult, Store.loadResult, Store.load, Procedure.bind_assoc] at h
  rw [Collects]
  -- Which path it is makes no difference, and a variable keeps its text from being computed.
  generalize Store.resultPath options.outputDir m.id = path at h
  obtain ⟨a, ⟨d, stored⟩, rest, ⟨hread, hstored⟩, hrest, rfl⟩ := runs_request_iff.mp h
  cases hread
  subst hstored
  rw [Store.result?]
  cases htext : s.disk.readText path with
  | error e =>
    rw [htext] at hrest
    obtain ⟨-, rfl, rfl⟩ := runs_pure_iff.mp hrest
    use rfl
    right
    use rfl, detail
    rfl
  | ok text =>
    rw [htext] at hrest
    dsimp only at hrest
    cases hparse : Record.parse? Record.result? text with
    | none =>
      rw [hparse] at hrest
      obtain ⟨-, rfl, rfl⟩ := runs_pure_iff.mp hrest
      use rfl
      right
      use hparse, detail
      rfl
    | some stored =>
      rw [hparse] at hrest
      obtain ⟨-, rfl, rfl⟩ := runs_pure_iff.mp hrest
      use rfl
      left
      apply hparse

/-- While some mutations have had their turns, under a path for a result nothing has changed, or it
is for one of these mutations and a text was stored there. -/
structure Advances (outputDir : String) (all turned : List Mutation) (s s' : Storage) : Prop where
  home : s'.disk.home = s.disk.home
  stored : ∀ path ∈ resultPaths outputDir all,
    s.Kept path s' ∨ (path ∈ resultPaths outputDir turned ∧ s'.Received path)

theorem Advances.trans {turned turned' : List Mutation} {s₁ : Storage}
    (h : Advances outputDir all turned s s₁) (h' : Advances outputDir all turned' s₁ s') :
  Advances outputDir all (turned ++ turned') s s'
  := by
  use h'.home.trans h.home
  intro path hpath
  obtain hkept' | ⟨⟨m, hm, heq⟩, hreceived⟩ := h'.stored path hpath
  · apply (h.stored path hpath).imp
    · exact fun hkept => hkept.trans hkept'
    · rintro ⟨⟨m, hm, heq⟩, hreceived⟩
      exact ⟨⟨m, List.mem_append_left _ hm, heq⟩, hreceived.of_kept hkept'⟩
  · right
    exact ⟨⟨m, List.mem_append_right _ hm, heq⟩, hreceived⟩

/-- In the turn of a mutation its result is stored or not, and then it is collected. -/
theorem runs_runOne_process {ending : CycleEnd}
    (hisolation : options.isolation = .subprocess program catalog testCommand workdir)
    (haside : Aside s.disk.home options.outputDir all) (hm : m ∈ all)
    (h : Runs (World.storing (resultPaths options.outputDir all)) (runOne parser m options) s events
      ending s') :
  Advances options.outputDir all [m] s s'
    ∧ ∀ result, ending = .finished result → Collects options s'.disk m result
  := by
  rw [runOne_of_subprocess hisolation] at h
  obtain ⟨rfl, message, rfl⟩ | ⟨_, s₀, a, s₁, hclock, ⟨hhome, hlaunch⟩, hafter⟩ :=
    runs_runProcess h
  · constructor
    · use rfl
      exact fun path _ => .inl (Storage.Kept.refl path _)
    · simp
  · obtain rfl : s = s₀ := hclock.symm
    have hadvance : Advances options.outputDir all [m] s s₁ := by
      use hhome
      intro path hpath
      apply (hlaunch path hpath).imp_right
      rintro ⟨houtput, hreceived⟩
      exact ⟨⟨m, List.mem_singleton_self m, (Option.some.inj houtput).symm⟩, hreceived⟩
    obtain ⟨rfl, message, rfl⟩ | ⟨_, detail, s₂, _, result, hdetail, hresult, rfl⟩ := hafter
    · use hadvance
      simp
    · obtain ⟨rfl, hcollects⟩ := runs_collectResult hresult
      obtain ⟨hhome₂, hkept⟩ := runs_processDetail (hhome ▸ haside) hm hdetail
      have hleft : Advances options.outputDir all [] s₁ s' :=
        ⟨hhome₂, fun path hpath => .inl (hkept path hpath)⟩
      constructor
      · apply hadvance.trans hleft
      · rintro _ ⟨⟩
        apply hcollects

/-- Results of mutations that have had their turns are stored or not, and each of them is the one
that its file holds in the end. -/
theorem advances_of_turns
    (hisolation : options.isolation = .subprocess program catalog testCommand workdir)
    (hall : ∀ turn ∈ turns, turn.1 ∈ all)
    (hdistinct : turns.Pairwise fun turn turn' => Store.resultPath options.outputDir turn.1.id
      ≠ Store.resultPath options.outputDir turn'.1.id)
    (haside : Aside s.disk.home options.outputDir all)
    (h : Turns (World.storing (resultPaths options.outputDir all)) parser options turns s events
      s') :
  Advances options.outputDir all (turns.map (·.1)) s s'
    ∧ ∀ m result, (m, .finished result) ∈ turns → Collects options s'.disk m result
  := by
  induction h with
  | nil =>
    constructor
    · use rfl
      exact fun path _ => .inl (Storage.Kept.refl path _)
    · simp
  | @idle _ _ _ _ s s₁ _ hidle hanswer _ ih =>
    have hsame : s₁ = s := by
      cases hidle with
      | isInterrupted | clock | print => exact hanswer
      | identify =>
        obtain ⟨hperform, hstored⟩ := hanswer
        obtain ⟨-, hdisk⟩ := Prod.mk.inj hperform
        cases s
        cases s₁
        cases hdisk
        cases hstored
        rfl
    subst hsame
    apply ih hall hdistinct haside
  | @turn m ending turns _ _ s s₁ s₂ hturn _ ih =>
    obtain ⟨hfirst, hdistinct⟩ := List.pairwise_cons.mp hdistinct
    obtain ⟨hadvance, hcollects⟩ :=
      runs_runOne_process hisolation haside (hall _ List.mem_cons_self) hturn
    obtain ⟨hrest, hcollects'⟩ := ih (fun turn hturn => hall turn (List.mem_cons_of_mem _ hturn))
      hdistinct (hadvance.home ▸ haside)
    -- The result of this mutation is not one of those that are stored later.
    have hkept : s₁.Kept (Store.resultPath options.outputDir m.id) s₂ := by
      obtain hkept | ⟨⟨_, hm', heq⟩, -⟩ := hrest.stored _ ⟨m, hall _ List.mem_cons_self, rfl⟩
      · apply hkept
      · obtain ⟨turn, hturn, rfl⟩ := List.mem_map.mp hm'
        cases hfirst turn hturn heq
    constructor
    · apply hadvance.trans hrest
    · intro m' result hmem
      obtain heq | hmem := List.mem_cons.mp hmem
      · cases heq
        apply (hcollects result rfl).of_kept hkept
      · apply hcollects' m' result hmem

/-- In a batch of mutations with different numbers, each result is the one that the file holds in
the end, or tells that the file holds none. The file holds what the process of the mutation has
stored, or, if it has stored nothing, what was there before the batch. The result is fresh only if
the process has stored a result of the mutation, or has stored nothing and a result that was there
before is the one that tells that it is missing. -/
theorem results_fresh_iff {outcome : BatchOutcome}
    (hisolation : options.isolation = .subprocess program catalog testCommand workdir)
    (hnumbered : ∀ m ∈ mutations, ∃ n : Nat, m.id = s!"M{n}")
    (hdistinct : (mutations.map (·.id)).Nodup)
    (haside : Aside d.home options.outputDir mutations)
    (h : Runs (World.storing (resultPaths options.outputDir mutations))
      (Batch.run parser mutations options) ⟨d, fun _ => none⟩ events (.finished outcome) s')
    (hmem : (m, result) ∈ mutations.zip outcome.results) :
  Collects options s'.disk m result
    ∧ (∀ text, s'.stored (Store.resultPath options.outputDir m.id) = some text →
      s'.disk.readText (Store.resultPath options.outputDir m.id) = .ok text)
    ∧ (s'.stored (Store.resultPath options.outputDir m.id) = none →
      ∀ text, d.readText (Store.resultPath options.outputDir m.id) = .ok text →
        s'.disk.readText (Store.resultPath options.outputDir m.id) = .ok text)
    ∧ (Fresh options s' m result
      ↔ (∃ text own, s'.stored (Store.resultPath options.outputDir m.id) = some text
          ∧ Record.parse? Record.result? text = some own ∧ own.mutationId = m.id)
        ∨ (s'.stored (Store.resultPath options.outputDir m.id) = none
          ∧ Store.result? s'.disk (Store.resultPath options.outputDir m.id) = some result
          ∧ ∃ detail, result = missing m options detail))
  := by
  obtain ⟨turns, s₁, rest, hmake, hrest, hends⟩ := exists_turns_of_finished h
  have hturned : ∀ turn ∈ turns, turn.1 ∈ mutations := fun turn hturn =>
    hends.map_fst_prefix.subset (List.mem_map_of_mem hturn)
  have hturns : (m, .finished result) ∈ turns := by
    rw [hends.eq_zip]
    exact List.mem_map_of_mem hmem
  have hm : m ∈ mutations := hturned _ hturns
  have hpaths : turns.Pairwise fun turn turn' => Store.resultPath options.outputDir turn.1.id
      ≠ Store.resultPath options.outputDir turn'.1.id := by
    have hids : (turns.map (·.1)).Pairwise fun m m' => m.id ≠ m'.id :=
      (List.pairwise_map.mp hdistinct).sublist hends.map_fst_prefix.sublist
    apply (List.pairwise_map.mp hids).imp_of_mem
    intro turn turn' hturn hturn' hne heq
    apply hne (Store.resultPath_inj (hnumbered _ (hturned turn hturn))
      (hnumbered _ (hturned turn' hturn')) heq)
  obtain ⟨hmake, hnone⟩ := hmake
  have hextends : Extends d s₁.disk := by
    obtain ⟨-, hmake⟩ | ⟨-, _, hanswer, -⟩ := Yields.of_commit hmake
    · apply (extends_of_makeDirectories hmake).1
    · cases hanswer
  obtain ⟨hadvance, hcollects⟩ :=
    advances_of_turns hisolation hturned hpaths (hextends.home ▸ haside) hrest
  have hcollects := hcollects m result hturns
  have hread : ∀ text, s'.stored (Store.resultPath options.outputDir m.id) = some text →
      s'.disk.readText (Store.resultPath options.outputDir m.id) = .ok text := by
    intro text htext
    obtain hkept | ⟨-, other, hother, hread⟩ := hadvance.stored _ ⟨m, hm, rfl⟩
    · have hstored := htext.symm.trans hkept.stored
      rw [hnone] at hstored
      cases hstored
    · cases htext.symm.trans hother
      apply hread
  use hcollects, hread
  constructor
  · intro hstored text htext
    obtain hkept | ⟨-, other, hother, -⟩ := hadvance.stored _ ⟨m, hm, rfl⟩
    · apply hkept.unchanged.readText_iff.mpr
      apply (hextends.unchanged (readText_ok_iff.mp htext)).readText_iff.mpr htext
    · cases hstored.symm.trans hother
  · apply fresh_iff hcollects hread

end Batch

/-! ### Processes that store what they are told, or nothing -/

/-- Puts a text where it can be written. -/
def Storage.store (s : Storage) (path text : String) : Storage :=
  match s.disk.writeContent path (.text text) with
  | .ok d => ⟨d, Function.update s.stored path (some text)⟩
  | .error _ => s

theorem Storage.received_store (s : Storage) (path text : String) :
  (s.store path text).disk.home = s.disk.home
    ∧ (s.Kept path (s.store path text) ∨ (s.store path text).Received path)
  := by
  rw [store]
  split
  · next d hwrite =>
    use (differAt_of_writeContent hwrite).2.home
    right
    use text, Function.update_self path (some text) s.stored
    apply readText_ok_iff.mpr (readContent_of_writeContent hwrite)
  · use rfl
    left
    apply Kept.refl

/-- Answers requests with a disk on which nothing unforeseen happens, where a process that is to
store its result under a path stores a text there, or nothing. -/
def Storage.serve (path : String) (text? : Option String) :
    (request : Request) → Storage → request.Answer × Storage
  | .file operation, s =>
    ((s.disk.perform operation).1, ⟨(s.disk.perform operation).2, s.stored⟩)
  | .consult _ _, s => (.ok (.passed ""), s)
  | .launch l, s => (.ok (.exited true ""),
      if l.output? = some path then text?.elim s (s.store path) else s)
  | .isInterrupted, s => (false, s)
  | .clock, s => (.ofSeconds 0, s)
  | .print _, s => ((), s)

theorem World.storing_of_serve {path : String} {text? : Option String} (request : Request)
    (s : Storage) (a : request.Answer) (s' : Storage)
    (h : World.ofAnswer (Storage.serve path text?) request s a s') :
  World.storing {path} request s a s'
  := by
  have hsame : s.disk.home = s.disk.home ∧ ∀ other ∈ ({path} : Set String), s.Kept other s :=
    ⟨rfl, fun other _ => Storage.Kept.refl other s⟩
  cases request with
  | file operation =>
    cases h
    exact ⟨rfl, rfl⟩
  | consult =>
    cases h
    apply hsame
  | launch l =>
    cases h
    split
    · next houtput =>
      cases text? with
      | none => exact ⟨rfl, fun other hother => .inl (hsame.2 other hother)⟩
      | some text =>
        obtain ⟨hhome, hreceived⟩ := s.received_store path text
        use hhome
        rintro _ rfl
        exact hreceived.imp_right fun hreceived => ⟨houtput, hreceived⟩
    · exact ⟨rfl, fun other hother => .inl (hsame.2 other hother)⟩
  | isInterrupted | clock | print =>
    cases h
    rfl

/-- Batches into a directory that leave the cycles to processes. -/
def BatchOptions.isolating (outputDir : String) : BatchOptions :=
  { BatchOptions.plain outputDir with isolation := .subprocess .itself "c.json" none none }

/-- A text in which a killed mutant may be stored. -/
def Mutation.killedText (m : Mutation) : String :=
  "\x7b\"mutation_id\":\"" ++ m.id ++ "\",\"status\":\"killed\",\"duration_ms\":0.0,"
    ++ "\"test_output\":\"\",\"description\":\"\",\"file\":\"" ++ m.file ++ "\",\"line\":1\x7d"

namespace Batch

variable {home : Location} {m : Mutation} {d : Disk}

theorem resultPaths_singleton (outputDir : String) (m : Mutation) :
  resultPaths outputDir [m] = {Store.resultPath outputDir m.id}
  := by
  ext path
  simp [resultPaths]

theorem aside_singleton {outputDir : String}
    (h : place home (Store.resultPath outputDir m.id) ≠ place home m.file) :
  Aside home outputDir [m]
  := by
  rintro _ ⟨_, hm, rfl⟩ _ hm' - -
  cases List.mem_singleton.mp hm
  cases List.mem_singleton.mp hm'
  apply h

/-- If a batch of one mutation ends with a status, it has had a run that ended with a result of
this status. -/
theorem exists_runs_serve {outputDir : String} {text? : Option String} {status : Status}
    {ran : BatchEnd × Storage} (hran : (Batch.run Parser.single [m] (.isolating outputDir)).run
      (Storage.serve (Store.resultPath outputDir m.id) text?) ⟨d, fun _ => none⟩ = ran)
    (hstatus : ran.1.outcome?.map (·.results.map (·.status)) = some [status]) :
  ∃ events outcome result, Runs (World.storing (resultPaths outputDir [m]))
      (Batch.run Parser.single [m] (.isolating outputDir)) ⟨d, fun _ => none⟩ events
      (.finished outcome) ran.2
    ∧ (m, result) ∈ [m].zip outcome.results ∧ result.status = status
  := by
  have hruns := (runs_run (Storage.serve (Store.resultPath outputDir m.id) text?)
    (Batch.run Parser.single [m] (.isolating outputDir)) ⟨d, fun _ => none⟩).mono
    World.storing_of_serve
  rw [hran, ← resultPaths_singleton] at hruns
  obtain ⟨outcome, houtcome, hresults⟩ := Option.map_eq_some_iff.mp hstatus
  rw [BatchEnd.outcome?_eq_some_iff.mp houtcome] at hruns
  obtain ⟨result, hresult, hstatus⟩ := List.map_eq_singleton_iff.mp hresults
  refine ⟨_, outcome, result, hruns, ?_, hstatus⟩
  rw [hresult]
  apply List.mem_singleton_self

/-- A result that a process has stored is fresh. -/
theorem results_fresh_killed :
  let m : Mutation := { Mutation.atStart "a.go" "<" ">" with id := "M0" }
  let d := Disk.single "a.go" "<"
  let options := BatchOptions.isolating "out"
  let ran := (Batch.run Parser.single [m] options).run
    (Storage.serve (Store.resultPath "out" m.id) (some m.killedText)) ⟨d, fun _ => none⟩
  ∃ events outcome result, Runs (World.storing (resultPaths options.outputDir [m]))
      (Batch.run Parser.single [m] options) ⟨d, fun _ => none⟩ events (.finished outcome) ran.2
    ∧ (m, result) ∈ [m].zip outcome.results ∧ result.status = .killed
    ∧ Fresh options ran.2 m result
  := by
  intro m d options ran
  have hnumbered : ∀ m' ∈ [m], ∃ n : Nat, m'.id = s!"M{n}" := by
    intro m' hm'
    cases List.mem_singleton.mp hm'
    use 0
    rfl
  have hdistinct : ([m].map (·.id)).Nodup := by simp
  have hplace : place d.home (Store.resultPath options.outputDir m.id) ≠ place d.home m.file := by
    decide +kernel
  have hstatus : ran.1.outcome?.map (·.results.map (·.status)) = some [.killed] := by
    decide +kernel
  have hstored : ran.2.stored (Store.resultPath options.outputDir m.id) = some m.killedText := by
    decide +kernel
  have hid : (Record.parse? Record.result? m.killedText).map (·.mutationId) = some m.id := by
    decide +kernel
  have hran : (Batch.run Parser.single [m] options).run
    (Storage.serve (Store.resultPath "out" m.id) (some m.killedText)) ⟨d, fun _ => none⟩ = ran :=
    rfl
  -- From here on the run is a variable, so that no step of the proof computes it.
  clear_value ran m d
  obtain ⟨events, outcome, result, hruns, hmem, hkilled⟩ := exists_runs_serve hran hstatus
  obtain ⟨own, hparse, hid⟩ := Option.map_eq_some_iff.mp hid
  use events, outcome, result, hruns, hmem, hkilled
  have haside : Aside d.home options.outputDir [m] := aside_singleton hplace
  have hisolation : options.isolation = .subprocess .itself "c.json" none none := rfl
  apply (results_fresh_iff hisolation hnumbered hdistinct haside hruns hmem).2.2.2.mpr
  left
  use m.killedText, own

/-- Whatever processes store, something holds of each result of a batch of mutations with different
numbers. -/
def Always (P : BatchOptions → Storage → Mutation → TestResult → Prop) : Prop :=
  ∀ {parser program catalog testCommand workdir options mutations d events outcome s' m result},
    options.isolation = .subprocess program catalog testCommand workdir →
    (∀ m ∈ mutations, ∃ n : Nat, m.id = s!"M{n}") → (mutations.map (·.id)).Nodup →
    Aside d.home options.outputDir mutations →
    Runs (World.storing (resultPaths options.outputDir mutations))
      (Batch.run parser mutations options) ⟨d, fun _ => none⟩ events (.finished outcome) s' →
    (m, result) ∈ mutations.zip outcome.results → P options s' m result

/-- What always holds, holds of the result of a batch of one mutation. -/
theorem Always.of_serve {P : BatchOptions → Storage → Mutation → TestResult → Prop}
    {outputDir : String} {text? : Option String} {status : Status} {ran : BatchEnd × Storage}
    (h : Always P) (hnumbered : ∃ n : Nat, m.id = s!"M{n}")
    (hplace : place d.home (Store.resultPath outputDir m.id) ≠ place d.home m.file)
    (hran : (Batch.run Parser.single [m] (.isolating outputDir)).run
      (Storage.serve (Store.resultPath outputDir m.id) text?) ⟨d, fun _ => none⟩ = ran)
    (hstatus : ran.1.outcome?.map (·.results.map (·.status)) = some [status]) :
  ∃ result, result.status = status ∧ P (.isolating outputDir) ran.2 m result
  := by
  obtain ⟨events, outcome, result, hruns, hmem, hresult⟩ := exists_runs_serve hran hstatus
  have haside : Aside d.home (BatchOptions.isolating outputDir).outputDir [m] :=
    aside_singleton hplace
  have hisolation : (BatchOptions.isolating outputDir).isolation
    = .subprocess .itself "c.json" none none := rfl
  have hdistinct : ([m].map (·.id)).Nodup := by simp
  use result, hresult
  apply h hisolation _ hdistinct haside hruns hmem
  intro m' hm'
  cases List.mem_singleton.mp hm'
  apply hnumbered

/-- A result that another batch has left is taken for the result of a mutation whose process has
stored none. Where none was left, no file holds the result of such a mutation. -/
theorem not_fresh :
  ¬Always Own ∧ ¬Always fun options s m result =>
    Store.result? s.disk (Store.resultPath options.outputDir m.id) = some result
  := by
  let m : Mutation := { Mutation.atStart "a.go" "<" ">" with id := "M0" }
  let d := Disk.single "a.go" "<"
  have hpath : ∀ id, Store.resultPath (BatchOptions.isolating "out").outputDir id
    = Store.resultPath "out" id := fun _ => rfl
  have hnumbered : ∃ n : Nat, m.id = s!"M{n}" := ⟨0, rfl⟩
  have hplace : place d.home (Store.resultPath "out" m.id) ≠ place d.home m.file := by
    decide +kernel
  constructor
  · intro h
    let left := (d.put ["home", "out"] .directory).put ["home", "out", "M0.json"]
      (.file (.text m.killedText))
    generalize hran : (Batch.run Parser.single [m] (.isolating "out")).run
      (Storage.serve (Store.resultPath "out" m.id) none) ⟨left, fun _ => none⟩ = ran
    have hend : ran.1.outcome?.map (·.results.map (·.status)) = some [.killed]
        ∧ ran.2.stored (Store.resultPath "out" m.id) = none := by
      rw [← hran]
      decide +kernel
    have hhome : left.home = d.home := rfl
    clear_value left m d
    obtain ⟨result, hkilled, hown⟩ := h.of_serve hnumbered (hhome ▸ hplace) hran hend.1
    rw [Own, hpath, hend.2] at hown
    obtain ⟨detail, rfl⟩ := hown
    cases hkilled
  · intro h
    generalize hran : (Batch.run Parser.single [m] (.isolating "out")).run
      (Storage.serve (Store.resultPath "out" m.id) none) ⟨d, fun _ => none⟩ = ran
    have hend : ran.1.outcome?.map (·.results.map (·.status)) = some [.error]
        ∧ (Store.result? ran.2.disk (Store.resultPath "out" m.id)).isNone = true := by
      rw [← hran]
      decide +kernel
    clear_value m d
    obtain ⟨result, -, hpersisted⟩ := h.of_serve hnumbered hplace hran hend.1
    have hnone := hend.2
    rw [← hpath, hpersisted] at hnone
    cases hnone

end Batch

end MutationTesting
