import Mathlib.Data.List.Chain
import MutationTesting.Cycle
import MutationTesting.Proofs.Backup

/-!
# Cycles restore their file

On a faulty disk and with an oracle that may do anything, a cycle that ends with a result
leaves its file and the backup as they were. A cycle ends without a result only where the
oracle broke down, or where the file could not be written back or the backup not removed,
which `WriteBackFailed` tells from what happened.
-/

namespace MutationTesting

/-- A file that was made could not be filled. -/
def Event.isFailedFill : Event → Bool
  | ⟨.file (.fill _ _), .error _⟩ => true
  | _ => false

/-- A file could not be removed. -/
def Event.isFailedRemoval : Event → Bool
  | ⟨.file (.remove _), .error _⟩ => true
  | _ => false

/-- A file that could not be filled could at least be removed. -/
def CleansUp (events : List Event) : Prop :=
  events.IsChain fun event next => ¬(event.isFailedFill ∧ next.isFailedRemoval)

/-- The saved text of a file could not be written back where the file did not hold it, or the
backup of the file could not be removed. -/
inductive WriteBackFailed (file saved : String) (e : FileError) (events : List Event) : Prop where
  | write {held : Except FileError String} :
      [⟨.file (.readText file), held⟩, ⟨.file (.write file saved), .error e⟩] <:+: events →
      WriteBackFailed file saved e events
  | remove : e ≠ .notFound → ⟨.file (.remove (Backup.path file)), .error e⟩ ∈ events →
      WriteBackFailed file saved e events

instance (events : List Event) : Decidable (CleansUp events) :=
  inferInstanceAs (Decidable (events.IsChain _))

/-- A file holds what it held, and its backup is there if it was there. -/
structure Restored (file : String) (before after : Disk) : Prop where
  content : after.readContent file = before.readContent file
  backup : after.isPresent (Backup.path file) = before.isPresent (Backup.path file)

variable {file saved name : String} {d d' d'' : Disk} {events part : List Event}

theorem WriteBackFailed.mono {e : FileError} (h : WriteBackFailed file saved e part)
    (hpart : part <:+: events) :
  WriteBackFailed file saved e events
  := by
  cases h with
  | write h => apply WriteBackFailed.write (h.trans hpart)
  | remove hne h => apply WriteBackFailed.remove hne (hpart.subset h)

/-- Where every file that was made can be filled, none is left that could not. -/
theorem cleansUp_of_fills {σ α : Type} {w : World σ} {p q : Procedure α} {s s' : σ}
    (hfill : ∀ {path text s a s'}, w (.file (.fill path text)) s a s' → a = .ok ())
    (h : Procedure.Reaches w p s events q s') :
  CleansUp events
  := by
  have hnever : ∀ event ∈ events, event.isFailedFill = false := by
    induction h with
    | refl => simp
    | @step request next a q events s s₁ s₂ hanswer hrest ih =>
      intro event hmem
      obtain rfl | hmem := List.mem_cons.mp hmem
      · cases request with
        | file operation =>
          cases operation with
          | fill path text =>
            cases hfill hanswer
            rfl
          | _ => rfl
        | _ => rfl
      · apply ih event hmem
  apply List.Pairwise.isChain
  apply List.pairwise_of_forall_mem_list
  intro event hevent next _
  simp [hnever event hevent]

theorem Restored.refl (file : String) (d : Disk) :
  Restored file d d
  := ⟨rfl, rfl⟩

theorem Restored.of_text (hbefore : d.readText file = .ok saved)
    (habsent : d.isPresent (Backup.path file) = false) (hafter : d'.readText file = .ok saved)
    (hremoved : d'.isPresent (Backup.path file) = false) :
  Restored file d d'
  := by
  constructor
  · rw [Disk.readText_ok_iff.mp hafter, Disk.readText_ok_iff.mp hbefore]
  · rw [hremoved, habsent]

open Disk Procedure

/-! ### Writing back -/

/-- Clearing compiled code changes neither the file nor its backup. -/
theorem Backup.unchanged_of_clearCompiledCode (hname : EndsIn file name)
    (h : Runs World.faulty (Backup.clearCompiledCode file) d events () d') :
  Unchanged file d d' ∧ Unchanged (Backup.path file) d d'
  := by
  have hensures : Ensures World.faulty Eq (fun _ _ _ => True)
      (fun _ d' => Unchanged file d d' ∧ Unchanged (Backup.path file) d d')
      (Backup.clearCompiledCode file) d := by
    apply Backup.ensures_clearCompiledCode
    · rintro s _ rfl hs
      exact hs
    · intro cache s a s' hyields hs
      obtain rfl := Yields.list hyields
      use trivial
    · intro path hcompiled s a s' hyields hs
      obtain ⟨hfile, hbackup⟩ := hcompiled.isCompiled.unchanged hname
        (Yields.touched hyields rfl)
      use trivial
      use hs.1.trans hfile
      apply hs.2.trans hbackup
    · constructor <;> apply Unchanged.refl
  apply hensures.post_of_runs (fun _ => rfl) h

namespace Guard

variable {g g' : Guard} {held : Bool} {result : Except FileError Unit}

/-- What a file holds is only looked at, and what is seen is told. -/
theorem runs_holdsSaved (h : Runs World.faulty g.holdsSaved d events held d') :
  d' = d ∧ ∃ r, events = [⟨.file (.readText g.file), r⟩] ∧ (held = true ↔ r = .ok g.saved)
    ∧ ∀ text, r = .ok text → d.readText g.file = .ok text
  := by
  rw [holdsSaved] at h
  obtain ⟨r, d₁, rest, hread, hrest, rfl⟩ := runs_request_iff.mp h
  obtain ⟨rfl, hread⟩ := Yields.readText hread
  cases r with
  | error e =>
    obtain ⟨rfl, rfl, rfl⟩ := runs_pure_iff.mp hrest
    use rfl, .error e
    simp
  | ok text =>
    obtain ⟨rfl, rfl, rfl⟩ := runs_pure_iff.mp hrest
    use rfl, .ok text, rfl, by simp

/-- A backup that is removed is gone, and the file is as it was. -/
theorem runs_removeBackup (h : Runs World.faulty g.removeBackup d events result d')
    (hbackup : g.backup = Backup.path g.file) (hname : EndsIn g.file name) :
  (result = .ok () → Unchanged g.file d d' ∧ d'.isPresent g.backup = false)
    ∧ ∀ e, result = .error e → e ≠ .notFound ∧ ⟨.file (.remove g.backup), .error e⟩ ∈ events
  := by
  rw [removeBackup] at h
  obtain ⟨a, d₁, rest, hremove, hrest, rfl⟩ := runs_request_iff.mp h
  have htouched := Yields.touched hremove rfl
  have hkept : Unchanged g.file d d₁ := by
    rw [hbackup] at htouched
    apply Backup.unchanged_of_endsIn hname htouched
  have hcleared : d₁.isPresent g.backup = false →
      Runs World.faulty (do Backup.clearCompiledCode g.file; return .ok ()) d₁ rest result d' →
      result = .ok () ∧ Unchanged g.file d d' ∧ d'.isPresent g.backup = false := by
    intro habsent hrest
    obtain ⟨before, _, d₂, after, hclear, hdone, rfl⟩ := runs_bind_iff.mp hrest
    obtain ⟨rfl, rfl, rfl⟩ := runs_pure_iff.mp hdone
    obtain ⟨hfile, hpath⟩ := Backup.unchanged_of_clearCompiledCode hname hclear
    use rfl, hkept.trans hfile
    rw [hbackup, hpath.present, ← hbackup, habsent]
  split at hrest
  · obtain ⟨rfl, hdone⟩ := hcleared (Yields.remove_notFound hremove) hrest
    simpa using hdone
  · obtain ⟨rfl, hdone⟩ := hcleared (Yields.remove_ok hremove) hrest
    simpa using hdone
  · next e hne =>
    obtain ⟨rfl, rfl, rfl⟩ := runs_pure_iff.mp hrest
    simpa using hne

/-- What is written back is in the file, and the backup is gone. -/
theorem runs_writeBack (h : Runs World.faulty g.writeBack d events result d')
    (hbackup : g.backup = Backup.path g.file) (hname : EndsIn g.file name) :
  (result = .ok () → d'.readText g.file = .ok g.saved ∧ d'.isPresent g.backup = false)
    ∧ ∀ e, result = .error e → WriteBackFailed g.file g.saved e events
  := by
  rw [writeBack] at h
  obtain ⟨before, held, d₁, after, hheld, hrest, rfl⟩ := runs_bind_iff.mp h
  obtain ⟨rfl, r, rfl, hseen, hread⟩ := runs_holdsSaved hheld
  have hremoved : ∀ {d₂ before after}, d₂.readText g.file = .ok g.saved →
      Runs World.faulty g.removeBackup d₂ after result d' →
      (result = .ok () → d'.readText g.file = .ok g.saved ∧ d'.isPresent g.backup = false)
        ∧ ∀ e, result = .error e → WriteBackFailed g.file g.saved e (before ++ after) := by
    intro d₂ before after htext hremove
    obtain ⟨hok, herror⟩ := runs_removeBackup hremove hbackup hname
    constructor
    · intro hresult
      obtain ⟨hfile, hpath⟩ := hok hresult
      use hfile.readText_iff.mpr htext
    · intro e hresult
      obtain ⟨hne, hmem⟩ := herror e hresult
      apply WriteBackFailed.remove hne
      rw [← hbackup]
      apply List.mem_append_right before hmem
  split at hrest
  · next hheld =>
    apply hremoved (hread _ (hseen.mp hheld)) hrest
  · obtain ⟨a, d₂, rest, hwrite, hnext, rfl⟩ := runs_request_iff.mp hrest
    cases a with
    | error e =>
      obtain ⟨rfl, rfl, rfl⟩ := runs_pure_iff.mp hnext
      simp only [reduceCtorEq, false_implies, true_and, Except.error.injEq]
      rintro _ rfl
      apply WriteBackFailed.write
      apply List.infix_rfl
    | ok =>
      have htext := readText_ok_iff.mpr (Yields.write_ok hwrite)
      rw [List.append_cons]
      apply hremoved htext hnext

/-- Restoring a file writes it back, and the guard keeps its backup in mind. -/
theorem runs_restore (h : Runs World.faulty g.restore d events (result, g') d') :
  g'.backup = g.backup ∧ Runs World.faulty g.writeBack d events result d'
  := by
  rw [restore] at h
  obtain ⟨before, r, d₁, after, hwriteBack, hrest, rfl⟩ := runs_bind_iff.mp h
  cases r with
  | error e =>
    obtain ⟨rfl, hresult, rfl⟩ := runs_pure_iff.mp hrest
    cases hresult
    rw [List.append_nil]
    use rfl
  | ok =>
    obtain ⟨rfl, hresult, rfl⟩ := runs_pure_iff.mp hrest
    cases hresult
    rw [List.append_nil]
    use rfl

/-- A guard that is dropped before it has restored its file writes it back. -/
theorem runs_drop (h : Runs World.faulty g.drop d events () d') (hg : g.restored = false) :
  ∃ result, Runs World.faulty g.writeBack d events result d'
  := by
  rw [drop, hg] at h
  obtain ⟨before, r, d₁, after, hwriteBack, hrest, rfl⟩ := runs_bind_iff.mp h
  obtain ⟨rfl, -, rfl⟩ := runs_pure_iff.mp hrest
  use r
  rw [List.append_nil]
  apply hwriteBack

/-! ### Taking hold -/

/-- A guard holds the text of its file. Where there is none, nothing has changed, or else a file
that can be read was left alone and the backup that was made is gone. -/
theorem runs_acquire {acquired : Except FileError Guard}
    (h : Runs World.faulty (Guard.acquire file) d events acquired d') (hclean : CleansUp events) :
  (∀ e, acquired = .error e → d' = d ∨ ∃ saved, d.readText file = .ok saved
      ∧ Unchanged file d d' ∧ d.isPresent (Backup.path file) = false
      ∧ d'.isPresent (Backup.path file) = false)
    ∧ ∀ g, acquired = .ok g → ∃ saved, g = ⟨file, Backup.path file, saved, false⟩
      ∧ d.readText file = .ok saved ∧ d.isPresent (Backup.path file) = false
  := by
  rw [acquire] at h
  obtain ⟨a, d₁, rest, hread, hrest, rfl⟩ := runs_request_iff.mp h
  obtain ⟨rfl, htext⟩ := Yields.readText hread
  cases a with
  | error e =>
    obtain ⟨rfl, rfl, rfl⟩ := runs_pure_iff.mp hrest
    simp
  | ok saved =>
    obtain ⟨a, d₂, rest, hcreate, hnext, rfl⟩ := runs_request_iff.mp hrest
    cases a with
    | error e =>
      obtain rfl := Yields.create_error hcreate
      obtain ⟨rfl, rfl, rfl⟩ := runs_pure_iff.mp hnext
      simp
    | ok =>
      have hcreated := Yields.create_ok hcreate
      obtain ⟨a, d₃, rest, hfill, hlast, rfl⟩ := runs_request_iff.mp hnext
      cases a with
      | error e =>
        obtain ⟨a, d₄, rest, hremove, hdone, rfl⟩ := runs_request_iff.mp hlast
        obtain ⟨rfl, rfl, rfl⟩ := runs_pure_iff.mp hdone
        cases a with
        | error e' => simp [CleansUp, Event.isFailedFill, Event.isFailedRemoval] at hclean
        | ok =>
          obtain ⟨name, hname⟩ := Backup.exists_endsIn (readText_ok_iff.mp (htext _ rfl))
          have hcreated' := Backup.unchanged_of_endsIn hname (Yields.touched hcreate rfl)
          have hfilled := Backup.unchanged_of_endsIn hname (Yields.touched hfill rfl)
          have hremoved := Backup.unchanged_of_endsIn hname (Yields.touched hremove rfl)
          constructor
          · intro _ _
            right
            use saved, htext _ rfl, (hcreated'.trans hfilled).trans hremoved,
              isPresent_of_create hcreated, Yields.remove_ok hremove
          · simp
      | ok =>
        obtain ⟨rfl, rfl, rfl⟩ := runs_pure_iff.mp hlast
        simp [htext, isPresent_of_create hcreated]

theorem restored_of_runs_acquire {e : FileError}
    (h : Runs World.faulty (Guard.acquire file) d events (.error e) d') (hclean : CleansUp events) :
  Restored file d d'
  := by
  obtain rfl | ⟨saved, htext, hkept, habsent, hremoved⟩ := (runs_acquire h hclean).1 e rfl
  · apply Restored.refl
  · apply Restored.of_text htext habsent (hkept.readText_iff.mpr htext) hremoved

end Guard

/-! ### Cycles -/

/-- The mutation that puts one text for another where a file starts. -/
def Mutation.atStart (file fragment mutated : String) : Mutation where
  id := ""
  file := file
  line := 1
  column := 1
  kind := .relationalOperator
  fragment := fragment
  mutated := mutated
  description := ""
  priority := .low

/-- Finds a single node without a kind in every text. -/
def Parser.single : Parser := fun _ source =>
  .mk {
    kind := ""
    named := true
    hasError := false
    isError := false
    isMissing := false
    start := 0
    stop := source.utf8ByteSize
    fields := [] } []

/-- Options with which every mutant is tested. -/
def CycleOptions.plain : CycleOptions where
  scope := ""
  timeout := .ofSeconds 1
  verify := false
  invalidMutants := .test
  maxOutputBytes := 0

/-- The result of a cycle that ended with one. -/
def CycleEnd.result? : CycleEnd → Option TestResult
  | finished result => some result
  | unrestored _ | brokenDown _ => none

theorem CycleEnd.result?_eq_some_iff {ending : CycleEnd} {result : TestResult} :
  ending.result? = some result ↔ ending = .finished result
  := by
  cases ending <;> simp [result?]

namespace Cycle

variable {parser : Parser} {m : Mutation} {options : CycleOptions}

/-- Where no finding is made, the oracle broke down. -/
theorem runs_mutateAndTest {g : Guard} {found : Except String Finding} {states : List CycleState}
    (h : Runs World.faulty (mutateAndTest parser m g options) d events (found, states) d')
    {message : String} (hfound : found = .error message) :
  ⟨.consult options.scope options.timeout, .error message⟩ ∈ events
  := by
  rw [mutateAndTest] at h
  split at h
  · obtain ⟨rfl, hresult, rfl⟩ := runs_pure_iff.mp h
    cases hresult
    cases hfound
  · obtain ⟨a, d₁, rest, hwrite, hrest, rfl⟩ := runs_request_iff.mp h
    split at hrest
    · obtain ⟨rfl, hresult, rfl⟩ := runs_pure_iff.mp hrest
      cases hresult
      cases hfound
    · split at hrest
      · obtain ⟨rfl, hresult, rfl⟩ := runs_pure_iff.mp hrest
        cases hresult
        cases hfound
      · obtain ⟨a, d₂, rest, hconsult, hnext, rfl⟩ := runs_request_iff.mp hrest
        split at hnext
        · obtain ⟨rfl, hresult, rfl⟩ := runs_pure_iff.mp hnext
          cases hresult
          cases hfound
          simp
        · obtain ⟨rfl, hresult, rfl⟩ := runs_pure_iff.mp hnext
          cases hresult
          cases hfound

/-- A report changes nothing. -/
theorem runs_report {finding : Finding} {start : Duration} {result : TestResult}
    (h : Runs World.faulty (report m finding start options) d events result d') :
  d' = d
  := by
  rw [report] at h
  obtain ⟨stop, d₁, rest, rfl, hrest, rfl⟩ := runs_request_iff.mp h
  obtain ⟨-, -, rfl⟩ := runs_pure_iff.mp hrest
  rfl

/-- How a cycle may end that went from one disk to another along some events. -/
inductive EndsWell (m : Mutation) (options : CycleOptions) (before after : Disk)
    (events : List Event) : CycleEnd → Prop where
  | finished {result : TestResult} : Restored m.file before after →
      EndsWell m options before after events (.finished result)
  | brokenDown {message : String} :
      ⟨.consult options.scope options.timeout, .error message⟩ ∈ events →
      ((∀ saved e, ¬WriteBackFailed m.file saved e events) → Restored m.file before after) →
      EndsWell m options before after events (.brokenDown message)
  | unrestored {saved : String} {e : FileError} :
      before.readText m.file = .ok saved → WriteBackFailed m.file saved e events →
      EndsWell m options before after events (.unrestored ⟨m.file, Backup.path m.file, e⟩)

theorem endsWell_of_runs {before after : Disk} {run : CycleRun}
    (h : Runs World.faulty (Cycle.run parser m options) before events run after)
    (hclean : CleansUp events) :
  EndsWell m options before after events run.ending
  := by
  rw [Cycle.run] at h
  obtain ⟨start, _, _, rfl, hrest, rfl⟩ := runs_request_iff.mp h
  obtain ⟨taking, acquired, d₁, _, hacquire, hnext, rfl⟩ := runs_bind_iff.mp hrest
  have htaking := hclean.tail.left_of_append
  cases acquired with
  | error e =>
    obtain ⟨_, result, d₂, _, hreport, hdone, rfl⟩ := runs_bind_iff.mp hnext
    obtain ⟨rfl, rfl, rfl⟩ := runs_pure_iff.mp hdone
    obtain rfl := runs_report hreport
    apply EndsWell.finished (Guard.restored_of_runs_acquire hacquire htaking)
  | ok g =>
    obtain ⟨saved, rfl, htext, habsent⟩ := (Guard.runs_acquire hacquire htaking).2 g rfl
    obtain ⟨name, hname⟩ := Backup.exists_endsIn (readText_ok_iff.mp htext)
    obtain ⟨testing, ⟨found, states⟩, d₂, _, htest, hlast, rfl⟩ := runs_bind_iff.mp hnext
    cases found with
    | error message =>
      obtain ⟨dropping, _, d₃, _, hdrop, hdone, rfl⟩ := runs_bind_iff.mp hlast
      obtain ⟨rfl, rfl, rfl⟩ := runs_pure_iff.mp hdone
      obtain ⟨result, hwriteBack⟩ := Guard.runs_drop hdrop rfl
      obtain ⟨hrestored, hfailed⟩ := Guard.runs_writeBack hwriteBack rfl hname
      apply EndsWell.brokenDown
      · simp [runs_mutateAndTest htest rfl]
      · intro hnot
        cases result with
        | error e =>
          apply absurd _ (hnot saved e)
          apply (hfailed e rfl).mono
          use ⟨.clock, start⟩ :: (taking ++ testing), []
          simp
        | ok =>
          obtain ⟨hafter, hremoved⟩ := hrestored rfl
          apply Restored.of_text htext habsent hafter hremoved
    | ok finding =>
      obtain ⟨restoring, ⟨restored, g⟩, d₃, _, hrestore, hend, rfl⟩ := runs_bind_iff.mp hlast
      obtain ⟨hbackup, hwriteBack⟩ := Guard.runs_restore hrestore
      obtain ⟨hrestored, hfailed⟩ := Guard.runs_writeBack hwriteBack rfl hname
      cases restored with
      | error e =>
        obtain ⟨dropping, _, d₄, _, hdrop, hdone, rfl⟩ := runs_bind_iff.mp hend
        obtain ⟨rfl, rfl, rfl⟩ := runs_pure_iff.mp hdone
        rw [hbackup]
        apply EndsWell.unrestored htext
        apply (hfailed e rfl).mono
        use ⟨.clock, start⟩ :: (taking ++ testing), dropping
        simp
      | ok =>
        obtain ⟨_, result, d₄, _, hreport, hdone, rfl⟩ := runs_bind_iff.mp hend
        obtain ⟨rfl, rfl, rfl⟩ := runs_pure_iff.mp hdone
        obtain rfl := runs_report hreport
        obtain ⟨hafter, hremoved⟩ := hrestored rfl
        apply EndsWell.finished (Restored.of_text htext habsent hafter hremoved)

/-- A cycle that ends with a result has restored its file. One whose oracle broke down has
done so if the file could be written back and the backup removed. Only where they could not
does a cycle end with a failure, and everything else ends with a result. -/
theorem run_restores {before after : Disk} {run : CycleRun}
    (h : Runs World.faulty (Cycle.run parser m options) before events run after)
    (hclean : CleansUp events) :
  (∀ result, run.ending = .finished result → Restored m.file before after)
    ∧ (∀ message, run.ending = .brokenDown message →
      ⟨.consult options.scope options.timeout, .error message⟩ ∈ events
        ∧ ((∀ saved e, ¬WriteBackFailed m.file saved e events) → Restored m.file before after))
    ∧ (∀ failure, run.ending = .unrestored failure →
      failure.file = m.file ∧ failure.backup = Backup.path m.file
        ∧ ∃ saved, before.readText m.file = .ok saved
          ∧ WriteBackFailed m.file saved failure.cause events)
    ∧ ((∀ message, ⟨.consult options.scope options.timeout, .error message⟩ ∉ events) →
      (∀ saved e, ¬WriteBackFailed m.file saved e events) →
      ∃ result, run.ending = .finished result)
  := by
  have hends := endsWell_of_runs h hclean
  cases hending : run.ending with
  | finished result =>
    rw [hending] at hends
    cases hends with
    | finished hrestored => simp [hrestored]
  | brokenDown message =>
    rw [hending] at hends
    cases hends with
    | brokenDown hmessage hrestored =>
      constructor
      · simp
      constructor
      · rintro _ ⟨⟩
        use hmessage
      constructor
      · simp
      · intro hnot
        apply absurd hmessage (hnot message)
  | unrestored failure =>
    rw [hending] at hends
    cases hends with
    | unrestored htext hfailed =>
      constructor
      · simp
      constructor
      · simp
      constructor
      · rintro _ ⟨⟩
        exact ⟨rfl, rfl, _, htext, hfailed⟩
      · intro _ hnot
        apply absurd hfailed (hnot _ _)

/-- A cycle that makes a mutation on a disk with nothing unforeseen restores the file. -/
theorem run_restores_single :
  let p := Cycle.run Parser.single (.atStart "a.go" "<" ">") .plain
  let before := Disk.single "a.go" "<"
  CleansUp (p.events Disk.serve before) ∧ (p.run Disk.serve before).1.ending.result?.isSome
    ∧ Restored "a.go" before (p.run Disk.serve before).2
  := by
  intro p before
  have hclean : CleansUp (p.events Disk.serve before) := by decide +kernel
  have hruns := (runs_run Disk.serve p before).mono World.faulty_of_serve
  have hresult : (p.run Disk.serve before).1.ending.result?.isSome := by decide +kernel
  obtain ⟨result, hfinished⟩ := Option.isSome_iff_exists.mp hresult
  use hclean, hresult
  apply (run_restores hruns hclean).1 result
  apply CycleEnd.result?_eq_some_iff.mp hfinished

end Cycle

end MutationTesting
