import MutationTesting.Cycle
import MutationTesting.Proofs.Decimal.Rounding
import MutationTesting.Proofs.Disk.Standing

/-!
# The time of a result

A result tells the time from the first request of its cycle to the last one as a number of
milliseconds, which is finite because seconds that fit into 64 bits are far from the largest float.
-/

namespace MutationTesting

open Disk Procedure

theorem Duration.Fits.since {d : Duration} (h : d.Fits) (earlier : Duration) :
  (d.since earlier).Fits
  := by
  obtain ⟨hsecs, hnanos⟩ := h
  unfold Duration.since Duration.toNanos
  constructor <;> dsimp only <;> omega

namespace Cycle

open Decimal

theorem isFinite_elapsedMs {start stop : Duration} (h : stop.Fits) :
  (elapsedMs start stop).isFinite = true
  := by
  obtain ⟨hsecs, hnanos⟩ := h.since start
  unfold elapsedMs Console.seconds
  generalize stop.since start = d at hsecs hnanos
  have hsecs : (d.secs : ℚ) ≤ 2 ^ 64 := by exact_mod_cast hsecs.trans (by decide)
  have hnanos : (d.nanos : ℚ) ≤ 2 ^ 30 := by exact_mod_cast hnanos.le.trans (by decide)
  have hthousand : (1000 : Nat) ≤ (2 ^ 10 : ℚ) := by norm_num
  have hbillion : (1e9 : Float).toModel.unpack
      = .finite .positive (1953125 * 2 ^ 32) (-23) (by decide) := rfl
  have hfraction : IsWithin (Float.ofNat d.nanos / 1e9) 10 := by
    have hquotient := (isWithin_ofNat (by norm_num) (by norm_num) hnanos).div hbillion
      (inRange_of_le (by norm_num) (by norm_num))
    exact hquotient.mono (widen_le (by norm_num) (by norm_num))
  have hsum : IsWithin (Float.ofNat d.secs + Float.ofNat d.nanos / 1e9) (2 ^ 68) := by
    have hwhole := isWithin_ofNat (by norm_num) (by norm_num) hsecs
    have hsum := hwhole.add hfraction (inRange_of_le (by norm_num) (by norm_num))
      (inRange_of_le (by norm_num) (by norm_num)) (inRange_of_le (by norm_num) (by norm_num))
    exact hsum.mono (widen_le (by norm_num) (by norm_num))
  have hscale := isWithin_ofNat (by norm_num) (by norm_num) hthousand
  exact (hsum.mul hscale (inRange_of_le (by norm_num) (by norm_num))).isFinite

variable {parser : Parser} {m : Mutation} {options : CycleOptions} {result : TestResult}

/-- A cycle that ends with a result ends with a report. -/
theorem exists_report_of_finished {σ : Type} {w : World σ} {s s' : σ} {events : List Event}
    {run : CycleRun} (h : Runs w (Cycle.run parser m options) s events run s')
    (hfinished : run.ending = .finished result) :
  ∃ finding start s₁ reporting,
    Runs w (report m finding start options) s₁ reporting result s'
  := by
  rw [Cycle.run] at h
  obtain ⟨start, _, _, -, hrest, -⟩ := runs_request_iff.mp h
  obtain ⟨_, acquired, s₁, _, -, hnext, -⟩ := runs_bind_iff.mp hrest
  cases acquired with
  | error e =>
    obtain ⟨reporting, _, _, _, hreport, hdone, -⟩ := runs_bind_iff.mp hnext
    obtain ⟨-, rfl, rfl⟩ := runs_pure_iff.mp hdone
    cases hfinished
    exact ⟨_, start, s₁, reporting, hreport⟩
  | ok g =>
    obtain ⟨_, ⟨found, states⟩, _, _, -, hlast, -⟩ := runs_bind_iff.mp hnext
    cases found with
    | error message =>
      obtain ⟨_, _, _, _, -, hdone, -⟩ := runs_bind_iff.mp hlast
      obtain ⟨-, rfl, -⟩ := runs_pure_iff.mp hdone
      cases hfinished
    | ok finding =>
      obtain ⟨_, ⟨restored, g⟩, s₂, _, -, hend, -⟩ := runs_bind_iff.mp hlast
      cases restored with
      | error e =>
        obtain ⟨_, _, _, _, -, hdone, -⟩ := runs_bind_iff.mp hend
        obtain ⟨-, rfl, -⟩ := runs_pure_iff.mp hdone
        cases hfinished
      | ok =>
        obtain ⟨reporting, _, _, _, hreport, hdone, -⟩ := runs_bind_iff.mp hend
        obtain ⟨-, rfl, rfl⟩ := runs_pure_iff.mp hdone
        cases hfinished
        exact ⟨finding, start, s₂, reporting, hreport⟩

/-- The time of a result is finite. -/
theorem isFinite_durationMs_of_finished {d d' : Disk} {events : List Event} {run : CycleRun}
    (h : Runs World.inert (Cycle.run parser m options) d events run d')
    (hfinished : run.ending = .finished result) :
  result.durationMs.isFinite = true
  := by
  obtain ⟨finding, start, d₁, reporting, hreport⟩ := exists_report_of_finished h hfinished
  rw [report] at hreport
  obtain ⟨stop, _, _, ⟨hstop, -⟩, hdone, -⟩ := runs_request_iff.mp hreport
  obtain ⟨-, rfl, -⟩ := runs_pure_iff.mp hdone
  apply isFinite_elapsedMs hstop

end Cycle

end MutationTesting
