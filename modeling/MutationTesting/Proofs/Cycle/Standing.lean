import MutationTesting.Proofs.Cycle.Requests
import MutationTesting.Proofs.Cycle.Restoration
import MutationTesting.Proofs.Disk.Standing

/-!
# What a cycle leaves alone

On an inert disk a cycle that ends with a result leaves everything as it was whose name marks
neither a backup nor compiled code, be it the file of the cycle itself.
-/

namespace MutationTesting

open Disk Procedure

/-- The locations whose names end in one way. -/
def Disk.ending (tail : String) : Set Location :=
  {l | ∃ name, l.getLast? = some name ∧ tail.toList <:+ name.toList}

variable {tail : String} {home : Location} {d d' : Disk} {events : List Event}

/-- A path that ends in another way leads elsewhere. -/
theorem Disk.place_not_mem_ending {path name : String} {other : List Char}
    (hpath : EndsIn path name) (hsuffix : other <:+ name.toList)
    (hne : ¬other <:+ tail.toList) (hne' : ¬tail.toList <:+ other) :
  place home path ∉ ending tail
  := by
  rintro ⟨name', hname', hsuffix'⟩
  rw [hpath.getLast?_place home] at hname'
  obtain rfl := Option.some.inj hname'
  obtain h | h := List.suffix_or_suffix_of_suffix hsuffix hsuffix'
  · apply hne h
  · apply hne' h

/-- A file that was made can be filled on an inert disk. -/
theorem World.cleansUp_of_inert {α : Type} {p q : Procedure α}
    (h : Reaches World.inert p d events q d') :
  CleansUp events
  := by
  apply cleansUp_of_fills _ h
  intro path text s a s' hperform
  cases hperform
  rfl

namespace Cycle

variable {parser : Parser} {m : Mutation} {options : CycleOptions}

/-- What a cycle involves does nothing to other files than its own, but for backups and compiled
code. -/
theorem Involves.passes {request : Request} (h : Involves m options request) (home : Location) :
  request.Passes (ending ".json" \ {place home m.file}) home
  := by
  have hbackup : place home (Backup.path m.file) ∉ ending ".json" \ {place home m.file} := by
    obtain ⟨name, hname, hsuffix⟩ := exists_endsIn_of_suffix (by decide) (by decide) (by decide)
      (Backup.suffix_path m.file)
    exact fun hmem => place_not_mem_ending hname hsuffix (by decide) (by decide) hmem.1
  have hfile : place home m.file ∉ ending ".json" \ {place home m.file} := fun hmem => hmem.2 rfl
  cases h with
  | create => exact Request.passes_of_target? rfl hbackup
  | fill => exact Request.passes_of_target? rfl hbackup
  | write => exact Request.passes_of_target? rfl hfile
  | consult => exact Request.passes_of_eq fun _ _ _ hanswer => hanswer
  | settle hgfile hgbackup hsettles =>
    cases hsettles with
    | clock => exact Request.passes_of_eq fun _ _ _ hanswer => hanswer.2
    | read => exact Request.passes_of_eq fun _ _ _ hanswer => (congrArg Prod.snd hanswer).symm
    | write =>
      rw [hgfile]
      exact Request.passes_of_target? rfl hfile
    | remove =>
      rw [hgbackup]
      exact Request.passes_of_target? rfl hbackup
    | list => exact Request.passes_of_eq fun _ _ _ hanswer => (congrArg Prod.snd hanswer).symm
    | removeCompiled hclears =>
      obtain ⟨name, hname, hsuffix⟩ := hclears.isCompiled.endsIn
      apply Request.passes_of_target? rfl
      exact fun hmem => place_not_mem_ending hname hsuffix (by decide) (by decide) hmem.1

/-- A cycle whose file cannot be read does nothing. -/
theorem eq_of_unreadable {run : CycleRun} {e : FileError} (hread : d.readText m.file = .error e)
    (h : Runs World.inert (Cycle.run parser m options) d events run d') :
  d' = d
  := by
  rw [Cycle.run] at h
  obtain ⟨start, _, _, ⟨-, rfl⟩, hrest, -⟩ := runs_request_iff.mp h
  obtain ⟨_, acquired, d₁, _, hacquire, hnext, -⟩ := runs_bind_iff.mp hrest
  obtain ⟨a, d₂, _, hanswer, htaken, -⟩ := runs_request_iff.mp hacquire
  cases hanswer
  rw [hread] at htaken
  obtain ⟨-, rfl, rfl⟩ := runs_pure_iff.mp htaken
  obtain ⟨_, result, d₃, _, hreport, hdone, -⟩ := runs_bind_iff.mp hnext
  obtain ⟨-, -, rfl⟩ := runs_pure_iff.mp hdone
  apply runs_report (hreport.mono World.faulty_of_inert)

/-- A cycle that ends with a result leaves everything as it was, but for backups and compiled
code. -/
theorem stands_of_finished {run : CycleRun} {result : TestResult}
    (h : Runs World.inert (Cycle.run parser m options) d events run d')
    (hfinished : run.ending = .finished result) :
  Stands (ending ".json") d d'
  := by
  cases htext : d.readText m.file with
  | error e =>
    rw [eq_of_unreadable htext h]
    apply Stands.refl
  | ok text =>
    have hothers := (asks_run.mono fun _ hinvolves => hinvolves.passes d.home).stands_of_runs h
    have hrestored : Restored m.file d d' := by
      have hends := endsWell_of_runs (h.mono World.faulty_of_inert) (World.cleansUp_of_inert h)
      rw [hfinished] at hends
      cases hends with
      | finished hrestored => apply hrestored
    have hread := readText_ok_iff.mp htext
    have hbefore := lookup?_place hread
    have hafter := lookup?_place (hrestored.content.trans hread)
    rw [hothers.home] at hafter
    use hothers.home, hothers.directories
    intro l hl
    by_cases hfile : l = place d.home m.file
    · rw [hfile, hbefore, hafter]
    · apply hothers.lookup? ⟨hl, hfile⟩

end Cycle

end MutationTesting
