import MutationTesting.Proofs.Disk.World
import MutationTesting.Proofs.Record
import MutationTesting.Store

/-!
# Stored records are loaded again

A record that was saved is what its file holds, whatever else happened while it was saved, and
what is loaded from there is that record. The time that a result took, which is finite, is only told
by the number that stands in the file.
-/

namespace MutationTesting.Store

open Procedure

variable {d d' : Disk} {events : List Event} {path : String}

/-- A record that was saved is what its file holds. -/
theorem readText_of_runs_save {json : Json}
    (h : (save path json).Runs World.faulty d events (.ok ()) d') :
  d'.readText path = .ok (json.pretty ++ "\n")
  := by
  rw [save, runs_bind_iff] at h
  obtain ⟨before, made, d₁, after, -, h, -⟩ := h
  cases made with
  | error e => simp at h
  | ok _ =>
    obtain ⟨a, d₂, rest, hwrite, h, -⟩ := runs_request_iff.mp h
    cases a with
    | error e => simp at h
    | ok _ =>
      obtain ⟨-, -, rfl⟩ := runs_pure_iff.mp h
      apply Disk.readText_ok_iff.mpr (Disk.Yields.write_ok hwrite)

/-- What is loaded from a file that a plain value was printed to. -/
theorem load_of_readText {α : Type} {record? : Json → Option α} {json : Json}
    (hplain : json.Plain) (hread : d.readText path = .ok (json.pretty ++ "\n")) :
  (load record? path).run Disk.serve d
    = ((record? json).elim (.error (.malformed path)) .ok, d)
  := by
  have hanswer : d.perform (.readText path) = (.ok (json.pretty ++ "\n"), d) := by
    rw [Disk.perform, hread]
  rw [load, readText, file, request, ask_bind, run, Disk.serve, hanswer]
  simp only [done_bind, Record.parse?, hplain.parse?_pretty, Option.bind_some]
  cases record? json <;> rfl

theorem loadCatalog_of_readText {mutations : List Mutation}
    (hwords : ∀ m ∈ mutations, m.line ≤ Text.maxWord ∧ m.column ≤ Text.maxWord)
    (hread : d.readText path = .ok ((Record.ofCatalog mutations).pretty ++ "\n")) :
  (loadCatalog path).run Disk.serve d = (.ok mutations, d)
  := by
  rw [loadCatalog, load_of_readText (Record.plain_ofCatalog mutations) hread,
    Record.list?_ofCatalog hwords]
  rfl

theorem loadResult_of_readText {result : TestResult} {duration : Float}
    (hline : result.line ≤ Text.maxWord)
    (hduration : Json.real? (Json.ofFloat result.durationMs) = some duration)
    (hread : d.readText path = .ok ((Record.ofResult result).pretty ++ "\n")) :
  (loadResult path).run Disk.serve d = (.ok { result with durationMs := duration }, d)
  := by
  rw [loadResult, load_of_readText (Record.plain_ofResult result) hread,
    Record.result?_ofResult hline, hduration]
  rfl

/-- A catalog that was saved is loaded again, and so is a result whose time is finite, with the
number that its time is written as, whether it has a kind and a difference or not. -/
theorem load_of_saved (path : String) (d d' : Disk) (events : List Event) :
  (∀ mutations : List Mutation,
    (∀ m ∈ mutations, m.line ≤ Text.maxWord ∧ m.column ≤ Text.maxWord) →
    (saveCatalog path mutations).Runs World.faulty d events (.ok ()) d' →
      (loadCatalog path).run Disk.serve d' = (.ok mutations, d'))
  ∧ ∀ result : TestResult, result.line ≤ Text.maxWord → result.durationMs.isFinite = true →
    (saveResult path result).Runs World.faulty d events (.ok ()) d' →
      ∃ duration, Json.real? (Json.ofFloat result.durationMs) = some duration
        ∧ (loadResult path).run Disk.serve d' = (.ok { result with durationMs := duration }, d')
  := by
  constructor
  · intro mutations hwords h
    exact loadCatalog_of_readText hwords (readText_of_runs_save h)
  · intro result hline hfinite h
    obtain ⟨duration, hduration⟩ := Option.isSome_iff_exists.mp (Json.real?_ofFloat hfinite)
    use duration, hduration
    exact loadResult_of_readText hline hduration (readText_of_runs_save h)

/-- A mutation and a result with characters that are escaped. -/
def quoted : Mutation × TestResult :=
  let m : Mutation := ⟨"M1", "dir \\ä.c", 3, 4, .arithmeticOperator, "\"+\"", "\t-\x00", "é\n𝔸", .low⟩
  (m, { TestResult.blank m .killed with durationMs := 1.5, kind := none, diff := "-+\r\n" })

/-- Both are loaded again, the time as it was. -/
theorem load_of_saved_quoted :
  let d := Disk.single "a.c" ""
  let saved := ((saveCatalog "c.json" [quoted.1]).run Disk.serve d).2
  let kept := ((saveResult "out/r.json" quoted.2).run Disk.serve d).2
  (loadCatalog "c.json").run Disk.serve saved = (.ok [quoted.1], saved)
    ∧ (loadResult "out/r.json").run Disk.serve kept = (.ok quoted.2, kept)
  := by
  intro d saved kept
  have hsaved := (runs_run Disk.serve (saveCatalog "c.json" [quoted.1]) d).mono
    World.faulty_of_serve
  have hkept := (runs_run Disk.serve (saveResult "out/r.json" quoted.2) d).mono
    World.faulty_of_serve
  have hok : ((saveCatalog "c.json" [quoted.1]).run Disk.serve d).1 = .ok () := by decide +kernel
  have hok' : ((saveResult "out/r.json" quoted.2).run Disk.serve d).1 = .ok () := by
    decide +kernel
  have hduration : Json.real? (Json.ofFloat quoted.2.durationMs) = some 1.5 := by decide +kernel
  rw [hok] at hsaved
  rw [hok'] at hkept
  constructor
  · apply (load_of_saved _ _ _ _).1 _ (by decide +kernel) hsaved
  · obtain ⟨duration, hread, hload⟩ :=
      (load_of_saved _ _ _ _).2 _ (by decide +kernel) (by decide +kernel) hkept
    obtain rfl : duration = 1.5 := Option.some.inj (hread.symm.trans hduration)
    exact hload

end MutationTesting.Store
