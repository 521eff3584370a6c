import MutationTesting.Glob.Search
import MutationTesting.Proofs.Procedure.Asks
import MutationTesting.Proofs.Safekeeping.Targets

/-!
# A search looks only

A search for paths asks only what there is on a disk, so that it leaves the disk as it is, whatever
it finds.
-/

namespace MutationTesting

open Procedure

/-- A procedure that only reads leaves a disk as it is. -/
theorem Procedure.Asks.run_snd {α : Type} {p : Procedure α}
    (h : p.Asks fun request => request.isReading = true) (d : Disk) :
  (p.run Disk.serve d).2 = d
  := by
  induction p with
  | done value => rfl
  | ask request next ih =>
    have hsame : (Disk.serve request d).2 = d := by
      obtain ⟨hreading, -⟩ := h
      cases request with
      | file operation => cases operation <;> first | rfl | cases hreading
      | consult | launch | isInterrupted | clock | print => rfl
    rw [Procedure.run]
    dsimp only
    rw [hsame]
    apply ih _ (h.2 _)

namespace Glob

variable {q : Query} {lead : Lead} {path directory : String} {pattern : Pattern}
  {patterns : List Pattern}

theorem asks_childLeads {names : List String} :
  (childLeads directory patterns names).Asks fun request => request.isReading = true
  := by
  induction names with
  | nil => trivial
  | cons name names ih =>
    refine Asks.request rfl fun a => ?_
    exact ih.bind fun _ => trivial

theorem asks_follow {isDirectory : Bool} :
  (follow path isDirectory patterns).Asks fun request => request.isReading = true
  := by
  induction patterns generalizing path isDirectory with
  | nil => trivial
  | cons pattern patterns ih =>
    have henter : ∀ path, (do
        let isDirectory ← Procedure.isDirectory path
        if patterns.isEmpty then return [⟨path, isDirectory, []⟩]
        else follow path isDirectory patterns : Procedure (List Lead)).Asks
          fun request => request.isReading = true := by
      intro path
      refine Asks.request rfl fun a => ?_
      split
      · trivial
      · apply ih
    rw [follow]
    split
    · dsimp only
      split
      · refine (Asks.pure isDirectory).bind fun present => ?_
        split
        · apply henter
        · trivial
      · refine Asks.request rfl fun present => ?_
        split
        · apply henter
        · trivial
    · split
      · trivial
      · refine Asks.request rfl fun a => ?_
        cases a with
        | error e => trivial
        | ok names =>
          refine asks_childLeads.bind fun children => ?_
          dsimp only
          split
          · refine (henter _).bind fun parent => ?_
            split
            · exact (henter _).bind fun self => trivial
            · trivial
          · split
            · exact (henter _).bind fun self => trivial
            · trivial

theorem asks_examine :
  (examine q lead patterns).Asks fun request => request.isReading = true
  := by
  cases patterns with
  | nil => trivial
  | cons pattern patterns =>
    rw [examine]
    split
    · trivial
    · split
      · trivial
      · exact asks_follow.bind fun _ => trivial

theorem asks_decide :
  (Glob.decide q lead).Asks fun request => request.isReading = true
  := by
  rw [Glob.decide]
  split
  · split
    · dsimp only
      split
      · refine asks_follow.bind fun inside => ?_
        split
        · trivial
        · exact asks_examine.bind fun _ => trivial
      · split
        · trivial
        · exact asks_examine.bind fun _ => trivial
    · apply asks_examine
  · apply asks_examine

theorem asks_explore {fuel : Nat} {leads : List Lead} :
  (explore q fuel leads).Asks fun request => request.isReading = true
  := by
  induction fuel generalizing leads with
  | zero => trivial
  | succ fuel ih =>
    cases leads with
    | nil => trivial
    | cons lead leads => exact asks_decide.bind fun _ => ih.bind fun _ => trivial

/-- A search only reads. -/
theorem asks_search :
  (search q).Asks fun request => request.isReading = true
  := by
  refine Asks.request rfl fun a => ?_
  exact asks_follow.bind fun _ => asks_explore

end Glob

end MutationTesting
