import MutationTesting.Proofs.Disk.Way
import MutationTesting.Proofs.Procedure.Asks

/-!
# Disks that stand still

On `World.inert` operations do what they should, and oracles and programs leave everything alone.
A disk `Disk.Stands` at some locations if they hold what they held and there are no other
directories than before, so that every path leads where it led.
-/

namespace MutationTesting

open Disk Procedure

/-- A length of time that is stored in 64 bits for its seconds and a number for the rest of it. -/
structure Duration.Fits (d : Duration) : Prop where
  secs_le : d.secs ≤ Text.maxWord
  nanos_lt : d.nanos < 1000000000

/-- A disk where operations do what they should, and that oracles and programs leave alone, whatever
they answer. The clock tells times that fit into what they are stored in. -/
def World.inert : World Disk
  | .file operation, d, a, d' => d.perform operation = (a, d')
  | .clock, d, time, d' => time.Fits ∧ d' = d
  | .consult _ _, d, _, d' | .launch _, d, _, d' | .isInterrupted, d, _, d' | .print _, d, _, d' =>
    d' = d

/-- Nothing happens on an inert disk that could not happen on a faulty one. -/
theorem World.faulty_of_inert (request : Request) (d : Disk) (a : request.Answer) (d' : Disk)
    (h : World.inert request d a d') :
  World.faulty request d a d'
  := by
  cases request with
  | file operation =>
    left
    apply h
  | consult => trivial
  | launch => trivial
  | clock => exact h.2
  | isInterrupted | print => exact h

/-- A disk with nothing unforeseen is inert. -/
theorem World.inert_of_serve (request : Request) (d : Disk) (a : request.Answer) (d' : Disk)
    (h : World.ofAnswer Disk.serve request d a d') :
  World.inert request d a d'
  := by
  cases request with
  | file operation => apply h
  | consult | launch | isInterrupted | print => exact (congrArg Prod.snd h).symm
  | clock =>
    cases h
    exact ⟨⟨Nat.zero_le _, by decide⟩, rfl⟩

namespace Disk

variable {locations locations' : Set Location} {location : Location} {d d' d'' : Disk}
  {path parent text : String}

/-- Two disks have the same directories, and hold the same at some locations. -/
structure Stands (locations : Set Location) (d d' : Disk) : Prop where
  home : d'.home = d.home
  directories : ∀ l, d'.lookup? l = some .directory ↔ d.lookup? l = some .directory
  lookup? : ∀ {l}, l ∈ locations → d'.lookup? l = d.lookup? l

namespace Stands

theorem refl (locations : Set Location) (d : Disk) :
  Stands locations d d
  := ⟨rfl, fun _ => Iff.rfl, fun _ => rfl⟩

theorem trans (h : Stands locations d d') (h' : Stands locations d' d'') :
  Stands locations d d''
  := ⟨h'.home.trans h.home, fun l => (h'.directories l).trans (h.directories l),
    fun hl => (h'.lookup? hl).trans (h.lookup? hl)⟩

theorem mono (h : Stands locations d d') (hsub : locations' ⊆ locations) :
  Stands locations' d d'
  := ⟨h.home, h.directories, fun hl => h.lookup? (hsub hl)⟩

theorem of_differAt (h : DifferAt location d d') (hlocation : location ∉ locations) :
  Stands locations d d'
  := by
  have hother : ∀ {l}, l ≠ location → d'.lookup? l = d.lookup? l := fun {l} => h.other l
  constructor
  · apply h.home
  · intro l
    by_cases heq : l = location
    · subst heq
      exact iff_of_false h.after h.before
    · rw [hother heq]
  · intro l hl
    apply hother
    rintro rfl
    apply hlocation hl

theorem of_touched (h : Touched path d d')
    (hpath : IsPath path → place d.home path ∉ locations) :
  Stands locations d d'
  := by
  obtain rfl | ⟨hisPath, hdiffer⟩ := h
  · apply refl
  · apply of_differAt hdiffer (hpath hisPath)

/-- Every path leads where it has led. -/
theorem locate_iff (h : Stands locations d d') {target : Target} :
  d'.locate path = .ok target ↔ d.locate path = .ok target
  := by
  constructor
  · exact locate_of_keepsDirectories ⟨h.home.symm, fun l hl => (h.directories l).mp hl⟩
  · exact locate_of_keepsDirectories ⟨h.home, fun l hl => (h.directories l).mpr hl⟩

/-- A path to one of the locations finds what it has found. -/
theorem readText_iff (h : Stands locations d d') (hpath : place d.home path ∈ locations) :
  d'.readText path = .ok text ↔ d.readText path = .ok text
  := by
  rw [readText_ok_iff, readText_ok_iff, readContent_ok_iff, readContent_ok_iff]
  apply exists_congr
  intro l
  rw [h.locate_iff]
  apply and_congr_right
  intro hlocate
  rw [(locate_name hlocate).1, h.lookup? hpath]

/-- What could be written can still be written. -/
theorem exists_write (h : Stands locations d d') (hwrite : ∃ d₁, d.write path text = .ok d₁)
    (text' : String) :
  ∃ d₁, d'.write path text' = .ok d₁
  := by
  obtain ⟨_, hwrite⟩ := hwrite
  obtain ⟨l, hlocate, hl, -⟩ := writeContent_ok_iff.mp hwrite
  use d'.put l (.file (.text text'))
  apply writeContent_ok_iff.mpr
  use l, h.locate_iff.mpr hlocate
  rw [ne_eq, h.directories]
  use hl

end Stands

end Disk

/-! ### Requests that leave locations alone -/

/-- A request leaves some locations as they are on an inert disk. -/
def Request.Passes (locations : Set Location) (home : Location) (request : Request) : Prop :=
  ∀ ⦃d a d'⦄, World.inert request d a d' → d.home = home → Disk.Stands locations d d'

namespace Request

variable {locations : Set Location} {home : Location} {operation : FileOperation} {path : String}

theorem passes_of_eq {request : Request}
    (h : ∀ ⦃d a d'⦄, World.inert request d a d' → d' = d) :
  request.Passes locations home
  := by
  intro d a d' hanswer _
  rw [h hanswer]
  apply Stands.refl

theorem passes_of_target? (htarget : operation.target? = some path)
    (hpath : place home path ∉ locations) :
  (Request.file operation).Passes locations home
  := by
  rintro d a d' hanswer rfl
  apply Stands.of_touched (Yields.touched (.inl hanswer) htarget)
  exact fun _ => hpath

end Request

theorem Procedure.Asks.stands_of_runs {α : Type} {p : Procedure α} {locations : Set Location}
    {d d' : Disk} {events : List Event} {value : α} (hp : p.Asks (Request.Passes locations d.home))
    (h : Runs World.inert p d events value d') :
  Stands locations d d'
  := by
  have hensures : Ensures World.inert Eq (fun _ _ _ => True) (fun _ d' => Stands locations d d')
      p d := by
    apply hp.ensures _ (Stands.refl locations d)
    intro r d₁ a d₂ hpasses hanswer hstands
    exact ⟨trivial, hstands.trans (hpasses hanswer hstands.home)⟩
  apply hensures.post_of_runs (fun _ => rfl) h

end MutationTesting
