import MutationTesting.Proofs.Cycle.Requests
import MutationTesting.Proofs.Cycle.Restoration
import MutationTesting.Proofs.Disk.Agree
import MutationTesting.Proofs.Procedure.Alike

/-!
# Cycles on a steady disk

On `World.steady` operations do what they should or are always refused, and the oracle judges by
what is on the disk and leaves it alone. Two cycles of one mutation that start from disks which
agree on the ways to its file and to its backup come to the same end, but for the time they took,
and a cycle that ends with a result leaves a disk that agrees with the one it started from.
-/

namespace MutationTesting

open Disk Procedure

/-- The operations that a disk always refuses, and its answers to them. What has just been made
can be filled. -/
structure Refusals where
  answer? : (operation : FileOperation) → Option operation.Answer
  fails : ∀ {operation a}, answer? operation = some a → operation.Fails a
  fill : ∀ path text, answer? (.fill path text) = none

/-- How a test oracle judges by what is on a disk. -/
abbrev Verdict := String → Duration → Disk → Except String Outcome

/-- No operations are refused. -/
def Refusals.none : Refusals where
  answer? _ := .none
  fails := nofun
  fill _ _ := rfl

/-- The oracle whose tests all pass. -/
def Verdict.passing : Verdict := fun _ _ _ => .ok (.passed "")

/-- A disk that does what it does not refuse, with an oracle that only looks at it, and without
interruptions. -/
def World.steady (refusals : Refusals) (verdict : Verdict) : World Disk
  | .file operation, d, a, d' => (refusals.answer? operation = some a ∧ d' = d)
    ∨ (refusals.answer? operation = none ∧ d.perform operation = (a, d'))
  | .consult scope limit, d, a, d' => a = verdict scope limit d ∧ d' = d
  | .isInterrupted, d, a, d' => a = false ∧ d' = d
  | .launch _, d, _, d' | .clock, d, _, d' | .print _, d, _, d' => d' = d

/-- The result of a mutation without the time that it took. -/
def TestResult.judged (r : TestResult) : TestResult := { r with durationMs := 0 }

/-- The end of a cycle without the time that it took. -/
def CycleEnd.judged : CycleEnd → CycleEnd
  | .finished result => .finished result.judged
  | ending => ending

/-- The ways to a file and to its backup lie within some locations, and the compiled code of the
file lies outside. -/
structure Confined (home : Location) (locations : Set Location) (file : String) : Prop where
  itself : ∀ l ∈ passes home file, l ∈ locations
  backup : ∀ l ∈ passes home (Backup.path file), l ∈ locations
  compiled : ∀ path, Backup.Clears file path → IsPath path → place home path ∉ locations

variable {refusals : Refusals} {verdict : Verdict} {home : Location} {locations : Set Location}
  {d d' d₁ d₁' : Disk} {file path : String}

/-! ### Steady disks -/

namespace World

theorem yields_of_steady {operation : FileOperation} {a : operation.Answer}
    (h : World.steady refusals verdict (.file operation) d a d') :
  d.Yields operation a d'
  := by
  obtain ⟨hrefused, rfl⟩ | ⟨-, hperform⟩ := h
  · right
    use refusals.fails hrefused
    cases operation with
    | readText | isPresent | isDirectory | create | remove | list | identify => rfl
    | fill | write | copy =>
      left
      rfl
    | makeDirectories => exact ⟨"", rfl⟩
  · left
    apply hperform

/-- Nothing happens on a steady disk that could not happen on a faulty one. -/
theorem faulty_of_steady (request : Request) (d : Disk) (a : request.Answer) (d' : Disk)
    (h : World.steady refusals verdict request d a d') :
  World.faulty request d a d'
  := by
  cases request with
  | file operation => apply yields_of_steady h
  | consult => trivial
  | launch => trivial
  | isInterrupted => exact h.2
  | clock | print => exact h

/-- On a steady disk every request is answered. -/
theorem exists_of_steady (request : Request) (d : Disk) :
  ∃ a d', World.steady refusals verdict request d a d'
  := by
  cases request with
  | file operation =>
    cases hrefused : refusals.answer? operation with
    | some a => exact ⟨a, d, .inl ⟨hrefused, rfl⟩⟩
    | none => exact ⟨_, _, .inr ⟨hrefused, rfl⟩⟩
  | consult scope limit => exact ⟨verdict scope limit d, d, rfl, rfl⟩
  | launch l => exact ⟨.error .notFound, d, rfl⟩
  | isInterrupted => exact ⟨false, d, rfl, rfl⟩
  | clock => exact ⟨.ofSeconds 0, d, rfl⟩
  | print => exact ⟨(), d, rfl⟩

/-- A disk with nothing unforeseen is steady. -/
theorem steady_of_serve (request : Request) (d : Disk) (a : request.Answer) (d' : Disk)
    (h : World.ofAnswer Disk.serve request d a d') :
  World.steady .none .passing request d a d'
  := by
  cases request with
  | file operation => exact .inr ⟨rfl, h⟩
  | consult => exact ⟨(congrArg Prod.fst h).symm, (congrArg Prod.snd h).symm⟩
  | isInterrupted => exact ⟨(congrArg Prod.fst h).symm, (congrArg Prod.snd h).symm⟩
  | launch | clock | print => exact (congrArg Prod.snd h).symm

/-- An operation along a way on which two disks agree is answered in the same way on both. -/
theorem steady_alike {operation : FileOperation} {a b : operation.Answer}
    (hway : operation.way? = some path) (hpath : ∀ l ∈ passes home path, l ∈ locations)
    (h : Agree home locations d d₁) (hd : World.steady refusals verdict (.file operation) d a d')
    (hd₁ : World.steady refusals verdict (.file operation) d₁ b d₁') :
  a = b ∧ Agree home locations d' d₁'
  := by
  obtain ⟨hrefused, rfl⟩ | ⟨hrefused, hperform⟩ := hd
  · obtain ⟨hrefused', rfl⟩ | ⟨hrefused', -⟩ := hd₁
    · use Option.some.inj (hrefused.symm.trans hrefused')
    · cases hrefused.symm.trans hrefused'
  · obtain ⟨hrefused', -⟩ | ⟨-, hperform'⟩ := hd₁
    · cases hrefused.symm.trans hrefused'
    · have halike := h.perform hpath hway
      rw [hperform, hperform'] at halike
      exact ⟨halike.1.symm, halike.2⟩

end World

/-- What is fit to be asked of a disk elsewhere: it changes nothing at some locations. -/
def Request.Aside (refusals : Refusals) (verdict : Verdict) (home : Location)
    (locations : Set Location) (request : Request) : Prop :=
  ∀ ⦃d a d'⦄, World.steady refusals verdict request d a d' → d.home = home →
    Agree home locations d d'

/-- Procedures that do nothing at some locations run alike. -/
theorem Procedure.Alike.of_aside {α β : Type} {p : Procedure α} {q : Procedure β}
    (hp : p.Asks (Request.Aside refusals verdict home locations))
    (hq : q.Asks (Request.Aside refusals verdict home locations)) :
  Alike (World.steady refusals verdict) (Agree home locations) (fun _ _ => True) p q
  := by
  apply of_asks hp hq
  · intro r d a d' d₁ haside hanswer hagree
    apply (haside hanswer hagree.left).symm.trans hagree
  · intro r d₁ b d₁' d haside hanswer hagree
    apply hagree.trans (haside hanswer hagree.right)

/-! ### Alike from disks that agree -/

variable {parser : Parser} {m : Mutation} {options : CycleOptions} {g : Guard}

/-- A request along a way may be followed by procedures that are alike. -/
theorem Procedure.Alike.along {α : Type} {operation : FileOperation}
    {f : operation.Answer → Procedure α} {E : α → α → Prop}
    (hway : operation.way? = some path) (hpath : ∀ l ∈ passes home path, l ∈ locations)
    (hf : ∀ a, Alike (World.steady refusals verdict) (Agree home locations) E (f a) (f a)) :
  Alike (World.steady refusals verdict) (Agree home locations) E
    (Procedure.file operation >>= f) (Procedure.file operation >>= f)
  := Alike.request (fun _ _ _ _ _ _ hagree hs ht => World.steady_alike hway hpath hagree hs ht) hf

theorem World.aside_of_touched {operation : FileOperation} (htarget : operation.target? = some path)
    (hpath : IsPath path → place home path ∉ locations) :
  (Request.file operation).Aside refusals verdict home locations
  := fun _ _ _ hanswer hhome => ((yields_of_steady hanswer).touched htarget).agree hhome hpath

/-- Clearing the compiled code of a file does nothing on the ways to it and its backup. -/
theorem Backup.aside_clearCompiledCode (hconfined : Confined home locations file) :
  (clearCompiledCode file).Asks (Request.Aside refusals verdict home locations)
  := by
  apply asks_clearCompiledCode
  · intro cache d a d' hanswer hhome
    rw [(World.yields_of_steady hanswer).list]
    apply Agree.refl hhome
  · intro path hclears
    apply World.aside_of_touched rfl (hconfined.compiled path hclears)

namespace Guard

variable (hconfined : Confined home locations file) (hfile : g.file = file)
  (hbackup : g.backup = Backup.path file)

include hconfined hfile

theorem alike_holdsSaved :
  Alike (World.steady refusals verdict) (Agree home locations) Eq g.holdsSaved g.holdsSaved
  := by
  rw [holdsSaved, hfile]
  apply Alike.along rfl hconfined.itself
  intro a
  cases a <;> exact Alike.pure rfl

include hbackup

theorem alike_removeBackup :
  Alike (World.steady refusals verdict) (Agree home locations) Eq g.removeBackup g.removeBackup
  := by
  have hclear : Alike (World.steady refusals verdict) (Agree home locations) Eq
      (do Backup.clearCompiledCode file; return (.ok () : Except FileError Unit))
      (do Backup.clearCompiledCode file; return .ok ()) := by
    apply Alike.bind (Alike.of_aside (Backup.aside_clearCompiledCode hconfined)
      (Backup.aside_clearCompiledCode hconfined))
    exact fun _ _ _ => Alike.pure rfl
  rw [removeBackup, hfile, hbackup]
  apply Alike.along rfl hconfined.backup
  intro a
  cases a with
  | ok => apply hclear
  | error e =>
    cases e with
    | notFound => apply hclear
    | _ => exact Alike.pure rfl

theorem alike_writeBack :
  Alike (World.steady refusals verdict) (Agree home locations) Eq g.writeBack g.writeBack
  := by
  apply Alike.bind (alike_holdsSaved hconfined hfile)
  rintro held _ rfl
  have hremove : Alike (World.steady refusals verdict) (Agree home locations) Eq g.removeBackup
      g.removeBackup := alike_removeBackup hconfined hfile hbackup
  cases held with
  | true => apply hremove
  | false =>
    rw [hfile]
    apply Alike.along rfl hconfined.itself
    intro a
    cases a with
    | error e => exact Alike.pure rfl
    | ok => apply hremove

theorem alike_restore :
  Alike (World.steady refusals verdict) (Agree home locations) Eq g.restore g.restore
  := by
  apply Alike.bind (alike_writeBack hconfined hfile hbackup)
  rintro result _ rfl
  cases result <;> exact Alike.pure rfl

theorem alike_drop :
  Alike (World.steady refusals verdict) (Agree home locations) Eq g.drop g.drop
  := by
  rw [drop]
  cases g.restored with
  | true => exact Alike.pure rfl
  | false =>
    apply Alike.bind (alike_writeBack hconfined hfile hbackup)
    exact fun _ _ _ => Alike.pure rfl

omit hfile hbackup

theorem alike_acquire :
  Alike (World.steady refusals verdict) (Agree home locations) Eq (acquire file) (acquire file)
  := by
  apply Alike.along rfl hconfined.itself
  intro a
  cases a with
  | error e => exact Alike.pure rfl
  | ok saved =>
    apply Alike.along rfl hconfined.backup
    intro a
    cases a with
    | error e => exact Alike.pure rfl
    | ok =>
      apply Alike.along rfl hconfined.backup
      intro a
      cases a with
      | ok => exact Alike.pure rfl
      | error e =>
        apply Alike.along rfl hconfined.backup
        exact fun _ => Alike.pure rfl

end Guard

namespace Cycle

variable (hconfined : Confined home locations m.file)

/-- What a mutant is found to be depends on nothing elsewhere. -/
theorem alike_mutateAndTest (hconfined : Confined home locations m.file) (hfile : g.file = m.file)
    (hverdict : ∀ {d d'}, Agree home locations d d' →
      verdict options.scope options.timeout d = verdict options.scope options.timeout d') :
  Alike (World.steady refusals verdict) (Agree home locations) Eq
    (mutateAndTest parser m g options) (mutateAndTest parser m g options)
  := by
  rw [mutateAndTest, hfile]
  cases m.apply parser g.saved with
  | error e => exact Alike.pure rfl
  | ok mutated =>
    apply Alike.along rfl hconfined.itself
    intro a
    cases a with
    | error e => exact Alike.pure rfl
    | ok =>
      dsimp only
      cases verdictWithoutTests? parser m mutated options with
      | some reason => exact Alike.pure rfl
      | none =>
        apply Alike.request
        · rintro d d₁ _ d' _ d₁' hagree ⟨rfl, rfl⟩ ⟨rfl, rfl⟩
          use hverdict hagree
        · intro a
          cases a <;> exact Alike.pure rfl

/-- The end of a cycle is told alike by reports that differ in the time. -/
theorem alike_report {finding : Finding} {start start' : Duration} {states : List CycleState} :
  Alike (World.steady refusals verdict) (Agree home locations)
    (fun run run' => run.ending.judged = run'.ending.judged)
    (do
      let result ← report m finding start options
      return ⟨.finished result, states⟩ : Procedure CycleRun)
    (do
      let result ← report m finding start' options
      return ⟨.finished result, states⟩ : Procedure CycleRun)
  := by
  apply Alike.bind (E := fun result result' => result.judged = result'.judged)
  · apply Alike.ask (fun _ _ => True)
    · rintro d d₁ _ _ _ _ hagree rfl rfl
      use trivial
    · rintro stop stop' -
      apply Alike.pure
      simp only [TestResult.judged]
  · intro result result' hjudged
    apply Alike.pure
    rw [CycleEnd.judged, CycleEnd.judged, hjudged]

/-- Cycles of one mutation come to the same end on disks that agree. -/
theorem alike_run (hconfined : Confined home locations m.file)
    (hverdict : ∀ {d d'}, Agree home locations d d' →
      verdict options.scope options.timeout d = verdict options.scope options.timeout d') :
  Alike (World.steady refusals verdict) (Agree home locations)
    (fun run run' => run.ending.judged = run'.ending.judged)
    (Cycle.run parser m options) (Cycle.run parser m options)
  := by
  rw [Cycle.run]
  apply Alike.ask (fun _ _ => True)
  · rintro d d₁ _ _ _ _ hagree rfl rfl
    use trivial
  · rintro start start' -
    apply Alike.bind_of_gives (Guard.alike_acquire hconfined) Guard.gives_acquire
    rintro acquired _ hacquired rfl
    cases acquired with
    | error e => apply alike_report
    | ok g =>
      obtain ⟨hfile, hbackup⟩ := hacquired g rfl
      apply Alike.bind (alike_mutateAndTest hconfined hfile hverdict)
      rintro ⟨found, states⟩ _ rfl
      cases found with
      | error message =>
        apply Alike.bind (Guard.alike_drop hconfined hfile hbackup)
        exact fun _ _ _ => Alike.pure rfl
      | ok finding =>
        apply Alike.bind_of_gives (Guard.alike_restore hconfined hfile hbackup) Guard.gives_restore
        rintro ⟨restored, g'⟩ _ ⟨hfile', hbackup', -⟩ rfl
        cases restored with
        | error e =>
          apply Alike.bind (Guard.alike_drop hconfined (hfile'.trans hfile)
            (hbackup'.trans hbackup))
          exact fun _ _ _ => Alike.pure rfl
        | ok => apply alike_report

end Cycle

/-! ### Back to where a cycle started -/

/-- What procedures do that do nothing at some locations leaves a disk that agrees. -/
theorem Procedure.Asks.agree_of_runs {α : Type} {p : Procedure α} {events : List Event} {value : α}
    (hp : p.Asks (Request.Aside refusals verdict home locations)) (hhome : d.home = home)
    (h : Runs (World.steady refusals verdict) p d events value d') :
  Agree home locations d d'
  := by
  have hensures : Ensures (World.steady refusals verdict) Eq (fun _ _ _ => True)
      (fun _ d' => Agree home locations d d') p d := by
    apply hp.ensures _ (Agree.refl hhome)
    intro r d₁ a d₂ haside hanswer hagree
    exact ⟨trivial, hagree.trans (haside hanswer hagree.right)⟩
  apply hensures.post_of_runs (fun _ => rfl) h

/-- On a steady disk no file is left that could not be filled. -/
theorem World.cleansUp_of_steady {α : Type} {p q : Procedure α} {events : List Event}
    (h : Reaches (World.steady refusals verdict) p d events q d') :
  CleansUp events
  := by
  apply cleansUp_of_fills _ h
  rintro path text s a s' (⟨hrefused, -⟩ | ⟨-, hperform⟩)
  · cases hrefused.symm.trans (refusals.fill _ _)
  · cases hperform
    rfl

/-- A guard that is not got on a steady disk has changed nothing, and one is got only where the
file can be read and the backup can be made. -/
theorem Guard.of_steady_acquire {acquired : Except FileError Guard} {events : List Event}
    (h : Runs (World.steady refusals verdict) (Guard.acquire file) d events acquired d') :
  (∀ e, acquired = .error e → d' = d)
    ∧ ∀ g, acquired = .ok g → (∃ saved, d.readText file = .ok saved)
      ∧ ∃ d₁, d.create (Backup.path file) = .ok d₁
  := by
  rw [acquire] at h
  obtain ⟨a, d₁, rest, hread, hrest, rfl⟩ := runs_request_iff.mp h
  obtain ⟨rfl, htext⟩ := (World.yields_of_steady hread).readText
  cases a with
  | error e =>
    obtain ⟨-, rfl, rfl⟩ := runs_pure_iff.mp hrest
    simp
  | ok saved =>
    obtain ⟨a, d₂, rest, hcreate, hnext, rfl⟩ := runs_request_iff.mp hrest
    cases a with
    | error e =>
      obtain rfl := (World.yields_of_steady hcreate).create_error
      obtain ⟨-, rfl, rfl⟩ := runs_pure_iff.mp hnext
      simp
    | ok =>
      have hcreated := (World.yields_of_steady hcreate).create_ok
      obtain ⟨a, d₃, rest, hfill, hlast, rfl⟩ := runs_request_iff.mp hnext
      cases a with
      | error e =>
        obtain ⟨hrefused, -⟩ | ⟨-, hperform⟩ := hfill
        · cases hrefused.symm.trans (refusals.fill _ _)
        · cases hperform
      | ok =>
        obtain ⟨-, rfl, rfl⟩ := runs_pure_iff.mp hlast
        simp [htext, hcreated]

namespace Cycle

/-- What a cycle involves does nothing but at the places of the file and its backup. -/
theorem Involves.aside {request : Request} (hconfined : Confined home locations m.file)
    (h : Involves m options request) :
  request.Aside refusals verdict home
    (locations \ {place home m.file, place home (Backup.path m.file)})
  := by
  have hfile : place home m.file
      ∉ locations \ {place home m.file, place home (Backup.path m.file)} := fun h => h.2 (.inl rfl)
  have hbackup : place home (Backup.path m.file)
      ∉ locations \ {place home m.file, place home (Backup.path m.file)} := fun h => h.2 (.inr rfl)
  cases h with
  | create => exact World.aside_of_touched rfl fun _ => hbackup
  | fill => exact World.aside_of_touched rfl fun _ => hbackup
  | write => exact World.aside_of_touched rfl fun _ => hfile
  | consult =>
    rintro d a _ ⟨rfl, rfl⟩ hhome
    apply Agree.refl hhome
  | settle hgfile hgbackup hsettles =>
    cases hsettles with
    | clock =>
      rintro d a _ rfl hhome
      apply Agree.refl hhome
    | read =>
      intro d a d' hanswer hhome
      rw [(World.yields_of_steady hanswer).readText.1]
      apply Agree.refl hhome
    | write =>
      rw [hgfile]
      exact World.aside_of_touched rfl fun _ => hfile
    | remove =>
      rw [hgbackup]
      exact World.aside_of_touched rfl fun _ => hbackup
    | list =>
      intro d a d' hanswer hhome
      rw [(World.yields_of_steady hanswer).list]
      apply Agree.refl hhome
    | removeCompiled hclears =>
      rw [hgfile] at hclears
      apply World.aside_of_touched rfl
      intro hpath hmem
      apply hconfined.compiled _ hclears hpath hmem.1

/-- A cycle that ends with a result leaves a disk that agrees with the one it started from. -/
theorem agree_of_runs {run : CycleRun} {result : TestResult} {events : List Event}
    (hconfined : Confined home locations m.file) (hhome : d.home = home)
    (h : Runs (World.steady refusals verdict) (Cycle.run parser m options) d events run d')
    (hfinished : run.ending = .finished result) :
  Agree home locations d d'
  := by
  have hrestored : Restored m.file d d' := by
    have hends := endsWell_of_runs (h.mono World.faulty_of_steady) (World.cleansUp_of_steady h)
    rw [hfinished] at hends
    cases hends with
    | finished hrestored => apply hrestored
  have hothers : Agree home (locations \ {place home m.file, place home (Backup.path m.file)}) d d' :=
    (asks_run.mono fun _ hinvolves => hinvolves.aside hconfined).agree_of_runs hhome h
  rw [Cycle.run] at h
  obtain ⟨start, _, _, rfl, hrest, rfl⟩ := runs_request_iff.mp h
  obtain ⟨_, acquired, d₁, _, hacquire, hnext, rfl⟩ := runs_bind_iff.mp hrest
  obtain ⟨herror, hok⟩ := Guard.of_steady_acquire hacquire
  cases acquired with
  | error e =>
    obtain rfl := herror e rfl
    obtain ⟨_, result, d₂, _, hreport, hdone, rfl⟩ := runs_bind_iff.mp hnext
    obtain ⟨-, -, rfl⟩ := runs_pure_iff.mp hdone
    obtain rfl := runs_report (hreport.mono World.faulty_of_steady)
    apply Agree.refl hhome
  | ok g =>
    obtain ⟨⟨saved, htext⟩, d₂, hcreate⟩ := hok g rfl
    have hread := readText_ok_iff.mp htext
    have hread' := hrestored.content.trans hread
    obtain ⟨name, hname⟩ := Backup.exists_endsIn hread
    obtain ⟨l, hlocate, habsent, -⟩ := create_ok_iff.mp hcreate
    have hplace := (locate_name hlocate).1
    rw [hplace] at hlocate habsent
    have habsent' : d'.lookup? (place home (Backup.path m.file)) = none := by
      have hlocate' := Backup.locate_path_eq hread' hname (locate_ok_iff.mp hlocate).1
        ((Backup.endsIn_path hname).utf8ByteSize_le hlocate)
      have hnothing := hrestored.backup.trans (isPresent_of_create hcreate)
      rw [hothers.right] at hlocate'
      apply lookup?_of_isPresent hlocate' hnothing
    use hhome, hothers.right
    intro l hl
    by_cases hfile : l = place home m.file
    · have hbefore := lookup?_place hread
      have hafter := lookup?_place hread'
      rw [hhome, ← hfile] at hbefore
      rw [hothers.right, ← hfile] at hafter
      rw [hbefore, hafter]
    · by_cases hbackup : l = place home (Backup.path m.file)
      · rw [hhome, ← hbackup] at habsent
        rw [← hbackup] at habsent'
        rw [habsent, habsent']
      · apply hothers.lookup?
        use hl
        rintro (heq | heq)
        · apply hfile heq
        · apply hbackup heq

end Cycle

end MutationTesting
