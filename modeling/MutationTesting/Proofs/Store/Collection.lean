import Mathlib.Data.List.Nodup
import MutationTesting.Proofs.Batch.Results
import MutationTesting.Proofs.Cycle.Steadiness
import MutationTesting.Proofs.Glob
import MutationTesting.Proofs.Report

/-!
# Collecting results

If a search `Glob.Lists` the JSON files in a directory, `Store.collectResults` gives the result that
each of them holds, and a file that holds none is passed over. The tally of results is the same in
any order, whatever times they took.
-/

namespace MutationTesting

open Disk Procedure

/-- A search finds the JSON files in a directory, each of them once. -/
structure Glob.Lists (pattern directory : String) (d : Disk) (paths : List String) : Prop where
  search : ∃ query, Query.parse pattern = .ok query ∧ ((search query).run Disk.serve d).1 = paths
  once : (paths.map (place d.home)).Nodup
  sound : ∀ path ∈ paths, ∃ name, ".json".toList <:+ name.toList
    ∧ d.locate path = .ok (.name (place d.home directory ++ [name]) false)
  complete : ∀ name, ".json".toList <:+ name.toList →
    (d.lookup? (place d.home directory ++ [name])).isSome →
    place d.home directory ++ [name] ∈ paths.map (place d.home)

/-- The result that a location holds. -/
def Store.resultAt? (d : Disk) (l : Location) : Option TestResult :=
  match d.lookup? l with
  | some (.file (.text text)) => Record.parse? Record.result? text
  | _ => none

namespace Store

variable {d : Disk} {path pattern directory : String} {paths : List String} {l : Location}
  {result : TestResult}

theorem resultAt?_eq_some_iff :
  resultAt? d l = some result ↔ ∃ text, d.lookup? l = some (.file (.text text))
    ∧ Record.parse? Record.result? text = some result
  := by
  rw [resultAt?]
  split
  · next text hl => simp [hl]
  · next hl =>
    apply iff_of_false (by simp)
    rintro ⟨text, htext, -⟩
    apply hl text htext

/-- A path that leads to a location finds the result there. -/
theorem result?_of_locate (h : d.locate path = .ok (.name l false)) :
  result? d path = resultAt? d l
  := by
  apply Option.ext
  intro result
  rw [result?_eq_some_iff, resultAt?_eq_some_iff]
  apply exists_congr
  intro text
  apply and_congr_left
  intro _
  rw [readText_ok_iff, readContent_ok_iff]
  constructor
  · rintro ⟨l', hlocate, hl'⟩
    cases h.symm.trans hlocate
    apply hl'
  · intro hl
    use l, h

/-! ### Directories that are known -/

theorem mem_entries_of_lookup? {entry : Entry} (h : d.lookup? l = some entry) (hl : l ≠ []) :
  (l, entry) ∈ d.entries
  := by
  rw [lookup?, if_neg hl] at h
  obtain ⟨⟨l', entry'⟩, hfind, rfl⟩ := Option.map_eq_some_iff.mp h
  have hl' := List.find?_some hfind
  rw [beq_iff_eq] at hl'
  subst hl'
  apply List.mem_of_find?_eq_some hfind

/-- A directory holds no result under a name if none of the things in it is a result. -/
theorem resultAt?_eq_none (h : ∀ e ∈ d.entries, e.1.dropLast = l → (resultAt? d e.1).isNone)
    (name : String) :
  resultAt? d (l ++ [name]) = none
  := by
  apply Option.eq_none_iff_forall_ne_some.mpr
  intro result hresult
  obtain ⟨text, hlookup, -⟩ := resultAt?_eq_some_iff.mp hresult
  have hnone := h _ (mem_entries_of_lookup? hlookup (by simp)) List.dropLast_concat
  rw [hresult] at hnone
  cases hnone

/-- A search lists a directory if what it finds are all things in it. -/
theorem lists_of_entries (names : List String)
    (hsearch : (Glob.Query.parse pattern).toOption.map
      (fun query => ((Glob.search query).run Disk.serve d).1) = some paths)
    (hpaths : paths.map (place d.home) = names.map (place d.home directory ++ [·]))
    (hnames : names.Nodup) (htails : ∀ name ∈ names, ".json".toList <:+ name.toList)
    (hread : ∀ path ∈ paths, (d.readContent path).toOption.isSome)
    (hentries : ∀ e ∈ d.entries, e.1.dropLast = place d.home directory →
      e.1 ∈ paths.map (place d.home)) :
  Glob.Lists pattern directory d paths
  := by
  constructor
  · obtain ⟨query, hquery, hfound⟩ := Option.map_eq_some_iff.mp hsearch
    use query
    cases hparse : Glob.Query.parse pattern with
    | error e =>
      rw [hparse] at hquery
      cases hquery
    | ok query' =>
      rw [hparse] at hquery
      cases hquery
      exact ⟨rfl, hfound⟩
  · rw [hpaths]
    apply hnames.map
    intro name name' heq
    simpa using heq
  · intro path hpath
    have hplace := List.mem_map_of_mem (f := place d.home) hpath
    rw [hpaths] at hplace
    obtain ⟨name, hname, heq⟩ := List.mem_map.mp hplace
    use name, htails name hname
    have hcontent := hread path hpath
    cases hfound : d.readContent path with
    | error e =>
      rw [hfound] at hcontent
      cases hcontent
    | ok content =>
      obtain ⟨l, hlocate, -⟩ := readContent_ok_iff.mp hfound
      rw [hlocate, (locate_name hlocate).1, heq]
  · intro name _ hsome
    obtain ⟨entry, hentry⟩ := Option.isSome_iff_exists.mp hsome
    apply hentries _ (mem_entries_of_lookup? hentry (by simp)) List.dropLast_concat

/-! ### Loading -/

theorem run_loadResult (d : Disk) (path : String) :
  ((loadResult path).run Disk.serve d).1.toOption = result? d path
    ∧ ((loadResult path).run Disk.serve d).2 = d
  := by
  have hread : (readText path).run Disk.serve d = (d.readText path, d) := rfl
  rw [loadResult, load, run_bind, hread, result?]
  dsimp only
  cases d.readText path with
  | error e => exact ⟨rfl, rfl⟩
  | ok text =>
    dsimp only [Except.toOption, Option.bind_some]
    cases Record.parse? Record.result? text <;> exact ⟨rfl, rfl⟩

/-- What is loaded from some files are the results that they hold. -/
theorem run_loadResults :
  (loadResults paths).run Disk.serve d = (paths.filterMap (result? d), d)
  := by
  induction paths with
  | nil => rfl
  | cons path paths ih =>
    obtain ⟨hresult, hsame⟩ := run_loadResult d path
    rw [loadResults, run_bind, run_bind, hsame, ih, hresult, List.filterMap_cons]
    cases result? d path <;> rfl

/-- What is collected is what the files that were found hold, if there are any. -/
theorem run_collectResults (h : Glob.Lists pattern directory d paths) :
  (collectResults pattern).run Disk.serve d
    = (if paths = [] then .error (.noMatches pattern) else .ok (paths.filterMap (result? d)), d)
  := by
  obtain ⟨query, hquery, hsearch⟩ := h.search
  rw [collectResults, hquery]
  dsimp only
  rw [run_bind, Glob.asks_search.run_snd, hsearch]
  cases paths with
  | nil => rfl
  | cons path paths =>
    dsimp only
    rw [run_bind, run_loadResults]
    rfl

/-! ### Results in a directory -/

/-- Among more things those that tell nothing make no difference. -/
theorem filterMap_perm {α β : Type} [DecidableEq α] {f : α → Option β} {all part : List α}
    (hall : all.Nodup) (hpart : part.Nodup) (hsub : part ⊆ all)
    (hnone : ∀ a ∈ all, a ∉ part → f a = none) :
  (all.filterMap f).Perm (part.filterMap f)
  := by
  have hfilter : (all.filter (· ∈ part)).filterMap f = all.filterMap f := by
    rw [List.filterMap_filter]
    apply List.filterMap_congr
    intro a ha
    by_cases hmem : a ∈ part
    · simp [hmem]
    · simp [hmem, hnone a ha hmem]
  rw [← hfilter]
  apply List.Perm.filterMap
  apply (List.perm_ext_iff_of_nodup (hall.filter _) hpart).mpr
  intro a
  rw [List.mem_filter, decide_eq_true_eq]
  exact ⟨And.right, fun ha => ⟨hsub ha, ha⟩⟩

/-- What is collected from a directory are the results of the files with some names, if these are
there and no others hold results. -/
theorem filterMap_result?_perm (h : Glob.Lists pattern directory d paths) (names : List String)
    (hnames : names.Nodup)
    (hthere : ∀ name ∈ names, ".json".toList <:+ name.toList
      ∧ (d.lookup? (place d.home directory ++ [name])).isSome)
    (hothers : ∀ name, ".json".toList <:+ name.toList → name ∉ names →
      resultAt? d (place d.home directory ++ [name]) = none) :
  (paths.filterMap (result? d)).Perm
    (names.filterMap fun name => resultAt? d (place d.home directory ++ [name]))
  := by
  have hpaths : paths.filterMap (result? d)
      = (paths.map (place d.home)).filterMap (resultAt? d) := by
    rw [List.filterMap_map]
    apply List.filterMap_congr
    intro path hpath
    obtain ⟨name, -, hlocate⟩ := h.sound path hpath
    rw [result?_of_locate hlocate, (locate_name hlocate).1]
    rfl
  have hnames' : names.filterMap (fun name => resultAt? d (place d.home directory ++ [name]))
      = (names.map fun name => place d.home directory ++ [name]).filterMap (resultAt? d) := by
    rw [List.filterMap_map]
    rfl
  rw [hpaths, hnames']
  apply filterMap_perm h.once
  · apply hnames.map
    intro name name' heq
    simpa using heq
  · intro l hl
    obtain ⟨name, hname, rfl⟩ := List.mem_map.mp hl
    obtain ⟨htail, hsome⟩ := hthere name hname
    apply h.complete name htail hsome
  · intro l hl hnot
    obtain ⟨path, hpath, rfl⟩ := List.mem_map.mp hl
    obtain ⟨name, htail, hlocate⟩ := h.sound path hpath
    rw [← (locate_name hlocate).1] at hnot ⊢
    apply hothers name htail
    intro hname
    apply hnot (List.mem_map_of_mem hname)

end Store

/-! ### Results in any order -/

/-- The tally of results is the same in any order, whatever times they took. -/
theorem Tally.ofResults_perm {results results' : List TestResult}
    (h : (results.map (·.judged)).Perm (results'.map (·.judged))) :
  ofResults results = ofResults results'
  := by
  have hstatuses : ∀ results : List TestResult,
      results.map (·.status) = (results.map (·.judged)).map (·.status) := by
    intro results
    rw [List.map_map]
    rfl
  apply ofStatuses_perm
  rw [hstatuses, hstatuses results']
  apply h.map

end MutationTesting
