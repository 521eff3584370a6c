import Mathlib.Algebra.Order.Field.Basic
import Mathlib.Data.Rat.Cast.Order
import Mathlib.Data.String.Basic
import Mathlib.Tactic.Linarith
import Mathlib.Tactic.Positivity
import MutationTesting.Batch

/-!
# What a report sums up

Every result is counted under its status, so that a tally parts its results
(`Tally.sum_number_ofStatuses`). A table of frequencies has every name once with the number of its
occurrences (`Tabulates`), which determines it, and the survivors are sorted so that those of one
line stay in their order. What a report holds after it has counted some results is
`Report.Counts`, and its loop counts what that of a tally does (`tally_aggregate`).
`Report.Summarizes` puts together what a report says of its results, and apart from their order it
says the same in whatever order they come.
-/

namespace MutationTesting

/-! ### The order of names -/

/-- Names sort as texts do. -/
theorem Path.compareNames_eq_lt_iff {a b : String} :
  compareNames a b = .lt ↔ a < b
  := by
  rw [String.lt_iff_toList_lt, compareNames]
  generalize a.toList = as
  generalize b.toList = bs
  induction as generalizing bs with
  | nil => cases bs <;> simp
  | cons a as ih =>
    cases bs with
    | nil => simp
    | cons b bs =>
      rw [List.compare_cons_cons, Ordering.then_eq_lt, ih, List.cons_lt_cons_iff,
        Std.LawfulLTCmp.eq_lt_iff_lt, Std.LawfulEqCmp.compare_eq_iff_eq]

theorem Path.compareNames_eq_eq_iff {a b : String} :
  compareNames a b = .eq ↔ a = b
  := by
  rw [compareNames, Std.LawfulEqCmp.compare_eq_iff_eq, String.toList_inj]

theorem Path.compareNames_eq_gt_iff {a b : String} :
  compareNames a b = .gt ↔ b < a
  := by
  rw [← compareNames_eq_lt_iff, compareNames, compareNames, Std.OrientedCmp.gt_iff_lt]

/-! ### Tallies -/

namespace Tally

/-- How many mutations a tally counts under a status. -/
def number (t : Tally) : Status → Nat
  | .killed => t.killed
  | .survived => t.survived
  | .timeout => t.timeouts
  | .error => t.errors

/-- Numbers tell a tally. -/
theorem eq_of_number {t t' : Tally} (htotal : t.total = t'.total)
    (h : ∀ status, t.number status = t'.number status) :
  t = t'
  := by
  obtain ⟨total, killed, survived, timeouts, errors⟩ := t
  obtain ⟨total', killed', survived', timeouts', errors'⟩ := t'
  obtain rfl : total = total' := htotal
  obtain rfl : killed = killed' := h .killed
  obtain rfl : survived = survived' := h .survived
  obtain rfl : timeouts = timeouts' := h .timeout
  obtain rfl : errors = errors' := h .error
  rfl

theorem number_count (t : Tally) (status other : Status) :
  (t.count status).number other = t.number other + if other = status then 1 else 0
  := by
  cases status <;> cases other <;> rfl

theorem total_count (t : Tally) (status : Status) :
  (t.count status).total = t.total
  := by
  cases status <;> rfl

/-- Counting adds to the number under a status how often it occurs. -/
theorem number_foldl_count (statuses : List Status) (t : Tally) (status : Status) :
  (statuses.foldl count t).number status = t.number status + statuses.count status
  := by
  induction statuses generalizing t with
  | nil => rfl
  | cons first statuses ih =>
    rw [List.foldl_cons, ih, number_count, List.count_cons, Nat.add_assoc, Nat.add_comm (ite _ _ _)]
    simp only [beq_iff_eq, @eq_comm _ first status]

theorem total_foldl_count (statuses : List Status) (t : Tally) :
  (statuses.foldl count t).total = t.total
  := by
  induction statuses generalizing t with
  | nil => rfl
  | cons first statuses ih => rw [List.foldl_cons, ih, total_count]

theorem number_ofStatuses (statuses : List Status) (status : Status) :
  (ofStatuses statuses).number status = statuses.count status
  := by
  have hnone : (uncounted statuses.length).number status = 0 := by
    cases status <;> rfl
  rw [ofStatuses, number_foldl_count, hnone, Nat.zero_add]

theorem total_ofStatuses (statuses : List Status) :
  (ofStatuses statuses).total = statuses.length
  := total_foldl_count statuses _

/-- Every result is counted under one status. -/
theorem sum_number_ofStatuses (statuses : List Status) :
  (ofStatuses statuses).killed + (ofStatuses statuses).survived + (ofStatuses statuses).timeouts
      + (ofStatuses statuses).errors
    = (ofStatuses statuses).total
  := by
  have hsum : statuses.count .killed + statuses.count .survived + statuses.count .timeout
      + statuses.count .error = statuses.length := by
    induction statuses with
    | nil => rfl
    | cons status statuses ih =>
      simp only [List.count_cons, List.length_cons, ← ih]
      cases status <;> simp <;> omega
  have hnumber := number_ofStatuses statuses
  rw [total_ofStatuses, ← hsum, ← hnumber, ← hnumber, ← hnumber, ← hnumber]
  rfl

/-- A tally does not depend on the order in which the results came. -/
theorem ofStatuses_perm {statuses statuses' : List Status} (h : statuses.Perm statuses') :
  ofStatuses statuses = ofStatuses statuses'
  := by
  apply eq_of_number
  · rw [total_ofStatuses, total_ofStatuses, h.length_eq]
  · intro status
    rw [number_ofStatuses, number_ofStatuses, h.count_eq]

/-- The percentage of killed mutants among the judged ones, without any rounding. -/
def exactScore (t : Tally) : ℚ := t.killed / (t.killed + t.survived) * 100

theorem exactScore_nonneg (t : Tally) :
  0 ≤ t.exactScore
  := by
  unfold exactScore
  positivity

theorem exactScore_le (t : Tally) :
  t.exactScore ≤ 100
  := by
  have hshare : (t.killed : ℚ) / (t.killed + t.survived) ≤ 1 := by
    apply div_le_one_of_le₀
    · exact le_add_of_nonneg_right (Nat.cast_nonneg _)
    · positivity
  unfold exactScore
  linarith

end Tally

/-! ### Tables of frequencies -/

/-- The number that a table has under a name. -/
def numberUnder (name : String) (table : List (String × Nat)) : Nat :=
  (table.lookup name).getD 0

@[simp] theorem numberUnder_nil (name : String) :
  numberUnder name [] = 0
  := rfl

@[simp] theorem numberUnder_cons (name : String) (entry : String × Nat)
    (table : List (String × Nat)) :
  numberUnder name (entry :: table) = if name = entry.1 then entry.2 else numberUnder name table
  := by
  rw [numberUnder, List.lookup_cons]
  split_ifs with h
  · rw [beq_iff_eq.mpr h]
    rfl
  · rw [beq_eq_false_iff_ne.mpr h]
    rfl

/-- A table has every name of a list once, in order, with the number of its occurrences. -/
structure Tabulates (table : List (String × Nat)) (names : List String) : Prop where
  ordered : table.Pairwise fun entry later => entry.1 < later.1
  pos : ∀ entry ∈ table, 0 < entry.2
  numberUnder_eq : ∀ name, numberUnder name table = names.count name
  sum_eq : (table.map (·.2)).sum = names.length

section

variable {table table' : List (String × Nat)} {name other : String}

theorem numberUnder_eq_zero (h : ∀ entry ∈ table, name < entry.1) :
  numberUnder name table = 0
  := by
  induction table with
  | nil => rfl
  | cons entry table ih =>
    rw [List.forall_mem_cons] at h
    rw [numberUnder_cons, if_neg h.1.ne, ih h.2]

theorem fst_of_mem_increment {entry : String × Nat} (h : entry ∈ increment name table) :
  entry.1 = name ∨ entry.1 ∈ table.map (·.1)
  := by
  induction table with
  | nil =>
    rw [increment, List.mem_singleton] at h
    exact .inl (h ▸ rfl)
  | cons first table ih =>
    obtain ⟨key, n⟩ := first
    rw [increment] at h
    split at h
    · obtain rfl | hrest := List.mem_cons.mp h
      · exact .inl rfl
      · exact .inr (List.mem_map_of_mem hrest)
    · obtain rfl | hrest := List.mem_cons.mp h
      · exact .inr (List.mem_cons_self ..)
      · exact .inr (List.mem_cons_of_mem _ (List.mem_map_of_mem hrest))
    · obtain rfl | hrest := List.mem_cons.mp h
      · exact .inr (List.mem_cons_self ..)
      · obtain hname | hmem := ih hrest
        · exact .inl hname
        · exact .inr (List.mem_cons_of_mem _ hmem)

theorem ordered_increment (h : table.Pairwise fun entry later => entry.1 < later.1) :
  (increment name table).Pairwise fun entry later => entry.1 < later.1
  := by
  induction table with
  | nil => apply List.pairwise_singleton
  | cons first table ih =>
    obtain ⟨key, n⟩ := first
    obtain ⟨hfirst, hrest⟩ := List.pairwise_cons.mp h
    rw [increment]
    split
    · next hlt =>
      rw [Path.compareNames_eq_lt_iff] at hlt
      refine List.pairwise_cons.mpr ⟨?_, h⟩
      intro entry hentry
      obtain rfl | hmem := List.mem_cons.mp hentry
      · exact hlt
      · exact hlt.trans (hfirst entry hmem)
    · exact List.pairwise_cons.mpr ⟨hfirst, hrest⟩
    · next hgt =>
      rw [Path.compareNames_eq_gt_iff] at hgt
      refine List.pairwise_cons.mpr ⟨?_, ih hrest⟩
      intro entry hentry
      obtain hname | hmem := fst_of_mem_increment hentry
      · rw [hname]
        exact hgt
      · obtain ⟨later, hlater, heq⟩ := List.mem_map.mp hmem
        rw [← heq]
        exact hfirst later hlater

theorem pos_increment (h : ∀ entry ∈ table, 0 < entry.2) :
  ∀ entry ∈ increment name table, 0 < entry.2
  := by
  induction table with
  | nil => simp [increment]
  | cons first table ih =>
    obtain ⟨key, n⟩ := first
    rw [List.forall_mem_cons] at h
    rw [increment]
    split
    · exact List.forall_mem_cons.mpr ⟨Nat.one_pos, List.forall_mem_cons.mpr h⟩
    · exact List.forall_mem_cons.mpr ⟨Nat.succ_pos n, h.2⟩
    · exact List.forall_mem_cons.mpr ⟨h.1, ih h.2⟩

/-- One is added under one name, and every other name keeps its number. -/
theorem numberUnder_increment (h : table.Pairwise fun entry later => entry.1 < later.1) :
  numberUnder other (increment name table)
    = numberUnder other table + if other = name then 1 else 0
  := by
  induction table with
  | nil => rw [increment, numberUnder_cons, numberUnder_nil, Nat.zero_add]
  | cons first table ih =>
    obtain ⟨key, n⟩ := first
    obtain ⟨hfirst, hrest⟩ := List.pairwise_cons.mp h
    rw [increment]
    split
    · next hlt =>
      rw [Path.compareNames_eq_lt_iff] at hlt
      rw [numberUnder_cons]
      split_ifs with hname
      · subst hname
        rw [numberUnder_eq_zero]
        intro entry hentry
        obtain rfl | hmem := List.mem_cons.mp hentry
        · exact hlt
        · exact hlt.trans (hfirst entry hmem)
      · rfl
    · next heq =>
      rw [Path.compareNames_eq_eq_iff] at heq
      subst heq
      rw [numberUnder_cons, numberUnder_cons]
      split_ifs
      · rfl
      · rfl
    · next hgt =>
      rw [Path.compareNames_eq_gt_iff] at hgt
      rw [numberUnder_cons, numberUnder_cons, ih hrest]
      split_ifs with hkey hname
      · subst hkey hname
        exact (lt_irrefl _ hgt).elim
      · rfl
      · rfl
      · rfl

theorem sum_increment :
  ((increment name table).map (·.2)).sum = (table.map (·.2)).sum + 1
  := by
  induction table with
  | nil => rfl
  | cons first table ih =>
    obtain ⟨key, n⟩ := first
    rw [increment]
    split
    · simp only [List.map_cons, List.sum_cons]
      omega
    · simp only [List.map_cons, List.sum_cons]
      omega
    · simp only [List.map_cons, List.sum_cons, ih]
      omega

end

/-- One more name is counted. -/
theorem Tabulates.increment {table : List (String × Nat)} {names : List String}
    (h : Tabulates table names) (name : String) :
  Tabulates (MutationTesting.increment name table) (names ++ [name])
  := by
  constructor
  · apply ordered_increment h.ordered
  · apply pos_increment h.pos
  · intro other
    rw [numberUnder_increment h.ordered, h.numberUnder_eq, List.count_append,
      List.count_singleton]
    simp only [beq_iff_eq, @eq_comm _ name other]
  · rw [sum_increment, h.sum_eq, List.length_append, List.length_singleton]

theorem tabulates_nil :
  Tabulates [] []
  := ⟨List.Pairwise.nil, by simp, fun _ => rfl, rfl⟩

/-- A table has a name with a number if the name occurs and that is how often. -/
theorem Tabulates.mem_iff {table : List (String × Nat)} {names : List String}
    (h : Tabulates table names) {name : String} {n : Nat} :
  (name, n) ∈ table ↔ n = names.count name ∧ 0 < n
  := by
  rw [← h.numberUnder_eq]
  have hordered := h.ordered
  have hpos := h.pos
  clear h
  induction table with
  | nil => simp +contextual
  | cons entry table ih =>
    obtain ⟨key, k⟩ := entry
    obtain ⟨hfirst, hrest⟩ := List.pairwise_cons.mp hordered
    rw [List.forall_mem_cons] at hpos
    rw [List.mem_cons, numberUnder_cons, Prod.mk.injEq]
    split_ifs with hname
    · dsimp only at hname
      subst hname
      constructor
      · rintro (⟨-, rfl⟩ | hmem)
        · exact ⟨rfl, hpos.1⟩
        · exact (lt_irrefl name (hfirst (name, n) hmem)).elim
      · rintro ⟨rfl, -⟩
        exact .inl ⟨rfl, rfl⟩
    · rw [or_iff_right]
      · exact ih hrest hpos.2
      · rintro ⟨heq, -⟩
        exact hname heq

/-- Lists with the same names, each as often, have one table. -/
theorem Tabulates.eq_of_perm {table table' : List (String × Nat)} {names names' : List String}
    (h : Tabulates table names) (h' : Tabulates table' names') (hperm : names.Perm names') :
  table = table'
  := by
  have hnodup : ∀ {table : List (String × Nat)} {names : List String}, Tabulates table names →
      table.Nodup := by
    intro table names h
    apply h.ordered.imp
    rintro entry later hlt rfl
    exact lt_irrefl _ hlt
  apply List.Perm.eq_of_pairwise _ h.ordered h'.ordered
  · rw [List.perm_ext_iff_of_nodup (hnodup h) (hnodup h')]
    rintro ⟨name, n⟩
    rw [h.mem_iff, h'.mem_iff, hperm.count_eq]
  · intro entry later _ _ hlt hgt
    exact (lt_asymm hlt hgt).elim

/-! ### Sorted survivors -/

/-- Elements that come no later than each other stay in their order when a list is sorted. -/
theorem filter_mergeSort {α : Type} {le : α → α → Bool}
    (htrans : ∀ a b c, le a b = true → le b c = true → le a c = true)
    (htotal : ∀ a b, (le a b || le b a) = true) {p : α → Bool}
    (hp : ∀ a b, p a = true → p b = true → le a b = true) (l : List α) :
  (l.mergeSort le).filter p = l.filter p
  := by
  have hpairwise : (l.filter p).Pairwise fun a b => le a b = true := by
    rw [List.pairwise_filter]
    exact List.pairwise_of_forall fun a b ha hb => hp a b ha hb
  have hsublist := (List.sublist_mergeSort htrans htotal hpairwise List.filter_sublist).filter p
  rw [List.filter_filter] at hsublist
  simp only [Bool.and_self] at hsublist
  have hlength := ((List.mergeSort_perm l le).filter p).length_eq
  exact (hsublist.eq_of_length hlength.symm).symm

theorem TestResult.noLater_iff {a b : TestResult} :
  a.noLater b = true ↔ a.file < b.file ∨ a.file = b.file ∧ a.line ≤ b.line
  := by
  rw [noLater]
  cases hfile : Path.compareNames a.file b.file with
  | lt =>
    rw [Path.compareNames_eq_lt_iff] at hfile
    simp [hfile]
  | eq =>
    rw [Path.compareNames_eq_eq_iff] at hfile
    simp [hfile, Nat.isLE_compare]
  | gt =>
    rw [Path.compareNames_eq_gt_iff] at hfile
    simp [hfile.not_gt, hfile.ne']

theorem TestResult.noLater_trans (a b c : TestResult) (hab : a.noLater b = true)
    (hbc : b.noLater c = true) :
  a.noLater c = true
  := by
  rw [noLater_iff] at *
  obtain hab | ⟨hfile, hab⟩ := hab
  · obtain hbc | ⟨hfile, -⟩ := hbc
    · exact .inl (hab.trans hbc)
    · exact .inl (hfile ▸ hab)
  · obtain hbc | ⟨hfile', hbc⟩ := hbc
    · exact .inl (hfile ▸ hbc)
    · exact .inr ⟨hfile.trans hfile', hab.trans hbc⟩

theorem TestResult.noLater_total (a b : TestResult) :
  (a.noLater b || b.noLater a) = true
  := by
  rw [Bool.or_eq_true, noLater_iff, noLater_iff]
  obtain hlt | heq | hgt := lt_trichotomy a.file b.file
  · exact .inl (.inl hlt)
  · obtain hle | hle := Nat.le_total a.line b.line
    · exact .inl (.inr ⟨heq, hle⟩)
    · exact .inr (.inr ⟨heq.symm, hle⟩)
  · exact .inr (.inl hgt)

/-! ### Counting results -/

/-- The results of mutants that the tests did not detect. -/
def survivorsOf (results : List TestResult) : List TestResult :=
  results.filter (·.status == .survived)

theorem survivorsOf_append_singleton (results : List TestResult) (r : TestResult) :
  survivorsOf (results ++ [r])
    = if r.status = .survived then survivorsOf results ++ [r] else survivorsOf results
  := by
  split_ifs with h
  · simp [survivorsOf, h]
  · simp [survivorsOf, h]

namespace Report

/-- What a report on so many results holds when some of them have been counted. -/
structure Counts (report : Report) (total : Nat) (counted : List TestResult) : Prop where
  tally_eq : report.tally = (counted.map (·.status)).foldl Tally.count (.uncounted total)
  score_eq : report.score = 0
  survivors_eq : report.survivors = survivorsOf counted
  survivorsByFile_tabulates :
    Tabulates report.survivorsByFile ((survivorsOf counted).map (·.file))
  survivorsByType_tabulates :
    Tabulates report.survivorsByType ((survivorsOf counted).map (·.category))

theorem counts_uncounted (total : Nat) :
  (uncounted total).Counts total []
  := ⟨rfl, rfl, rfl, tabulates_nil, tabulates_nil⟩

/-- A report counts a result as a tally does. -/
theorem tally_count (report : Report) (r : TestResult) :
  (report.count r).tally = report.tally.count r.status
  := by
  rw [count]
  cases r.status <;> rfl

theorem Counts.count {report : Report} {total : Nat} {counted : List TestResult}
    (h : report.Counts total counted) (r : TestResult) :
  (report.count r).Counts total (counted ++ [r])
  := by
  have htally : (report.count r).tally
      = ((counted ++ [r]).map (·.status)).foldl Tally.count (.uncounted total) := by
    rw [tally_count, h.tally_eq, List.map_append, List.foldl_append]
    rfl
  have hsurvivors := survivorsOf_append_singleton counted r
  cases hstatus : r.status with
  | survived =>
    rw [if_pos hstatus] at hsurvivors
    rw [Report.count, hstatus] at htally ⊢
    constructor
    · apply htally
    · apply h.score_eq
    · rw [hsurvivors, ← h.survivors_eq]
    · rw [hsurvivors, List.map_append]
      apply h.survivorsByFile_tabulates.increment
    · rw [hsurvivors, List.map_append]
      apply h.survivorsByType_tabulates.increment
  | killed | timeout | error =>
    rw [if_neg (by simp [hstatus])] at hsurvivors
    rw [Report.count, hstatus] at htally ⊢
    constructor
    · apply htally
    · apply h.score_eq
    · rw [hsurvivors, ← h.survivors_eq]
    · rw [hsurvivors]
      apply h.survivorsByFile_tabulates
    · rw [hsurvivors]
      apply h.survivorsByType_tabulates

theorem Counts.foldl_count {report : Report} {total : Nat} {counted : List TestResult}
    (h : report.Counts total counted) (results : List TestResult) :
  (results.foldl Report.count report).Counts total (counted ++ results)
  := by
  induction results generalizing report counted with
  | nil =>
    rw [List.append_nil]
    apply h
  | cons r results ih =>
    rw [List.foldl_cons, List.append_cons]
    apply ih (h.count r)

/-- When its score is put in, a report keeps everything else. -/
theorem graded_eq (report : Report) :
  report.graded = { report with score := report.graded.score }
  := by
  rw [graded]
  split <;> rfl

end Report

/-! ### Reports -/

/-- What a report says of its results. -/
structure Report.Summarizes (report : Report) (results : List TestResult) : Prop where
  results_eq : report.results = results
  total_eq : report.tally.total = results.length
  number_eq : ∀ status, report.tally.number status = results.countP (·.status == status)
  sum_eq : report.tally.killed + report.tally.survived + report.tally.timeouts
    + report.tally.errors = report.tally.total
  /-- Neither subtraction by which the judged mutants are counted goes below zero. -/
  judged_eq : report.tally.timeouts ≤ report.tally.total
    ∧ report.tally.errors ≤ report.tally.total - report.tally.timeouts
    ∧ report.tally.judged = report.tally.killed + report.tally.survived
  score_eq : report.score = if report.tally.killed + report.tally.survived = 0 then 0 else
    Float.ofNat report.tally.killed
      / Float.ofNat (report.tally.killed + report.tally.survived) * 100
  exactScore_mem : 0 ≤ report.tally.exactScore ∧ report.tally.exactScore ≤ 100
  survivors_perm : report.survivors.Perm (survivorsOf results)
  survivors_sorted : report.survivors.Pairwise fun a b =>
    a.file < b.file ∨ a.file = b.file ∧ a.line ≤ b.line
  survivors_stable : ∀ file line,
    report.survivors.filter (fun r => r.file = file ∧ r.line = line)
      = (survivorsOf results).filter (fun r => r.file = file ∧ r.line = line)
  survivorsByFile_tabulates :
    Tabulates report.survivorsByFile ((survivorsOf results).map (·.file))
  survivorsByType_tabulates :
    Tabulates report.survivorsByType ((survivorsOf results).map (·.category))
  sum_survivors_eq : (report.survivorsByFile.map (·.2)).sum = report.tally.survived
    ∧ (report.survivorsByType.map (·.2)).sum = report.tally.survived

/-- All results are counted in a report on them. -/
theorem counts_foldl_count (results : List TestResult) :
  (results.foldl Report.count (.uncounted results.length)).Counts results.length results
  := (Report.counts_uncounted results.length).foldl_count results

/-- The loop of a report and that of a batch count the same. -/
theorem tally_aggregate (results : List TestResult) :
  (aggregate results).tally = Tally.ofResults results
  := by
  rw [aggregate, Report.graded_eq, Tally.ofResults, Tally.ofStatuses, List.length_map]
  apply (counts_foldl_count results).tally_eq

theorem score_aggregate (results : List TestResult) :
  (aggregate results).score = if (aggregate results).tally.judged = 0 then 0 else
    Float.ofNat (aggregate results).tally.killed
      / Float.ofNat (aggregate results).tally.judged * 100
  := by
  have hcounts := counts_foldl_count results
  have htally : (aggregate results).tally
      = (results.foldl Report.count (.uncounted results.length)).tally := by
    rw [aggregate, Report.graded_eq]
  rw [htally, aggregate, Report.graded]
  dsimp only
  split_ifs with hpos hzero hzero
  · omega
  · rfl
  · apply hcounts.score_eq
  · omega

theorem number_aggregate (results : List TestResult) (status : Status) :
  (aggregate results).tally.number status = results.countP (·.status == status)
  := by
  rw [tally_aggregate, Tally.ofResults, Tally.number_ofStatuses, List.count, List.countP_map]
  rfl

/-- A report on a list of results sums them up. -/
theorem summarizes_aggregate (results : List TestResult) :
  (aggregate results).Summarizes results
  := by
  have hcounts := counts_foldl_count results
  have hkept : aggregate results = { results.foldl Report.count (.uncounted results.length) with
      score := (aggregate results).score
      survivors := (survivorsOf results).mergeSort TestResult.noLater
      results := results } := by
    rw [← hcounts.survivors_eq, aggregate, Report.graded_eq]
  have hsurvivors : (aggregate results).survivors
      = (survivorsOf results).mergeSort TestResult.noLater := congrArg (·.survivors) hkept
  have hsum : (aggregate results).tally.killed + (aggregate results).tally.survived
      + (aggregate results).tally.timeouts + (aggregate results).tally.errors
      = (aggregate results).tally.total := by
    rw [tally_aggregate]
    apply Tally.sum_number_ofStatuses
  have hjudged : (aggregate results).tally.judged
      = (aggregate results).tally.killed + (aggregate results).tally.survived := by
    rw [Tally.judged]
    omega
  have hbyFile : Tabulates (aggregate results).survivorsByFile
      ((survivorsOf results).map (·.file)) := by
    rw [hkept]
    apply hcounts.survivorsByFile_tabulates
  have hbyType : Tabulates (aggregate results).survivorsByType
      ((survivorsOf results).map (·.category)) := by
    rw [hkept]
    apply hcounts.survivorsByType_tabulates
  constructor
  · rfl
  · rw [tally_aggregate, Tally.ofResults, Tally.total_ofStatuses, List.length_map]
  · apply number_aggregate
  · exact hsum
  · exact ⟨by omega, by omega, hjudged⟩
  · rw [← hjudged]
    apply score_aggregate
  · exact ⟨Tally.exactScore_nonneg _, Tally.exactScore_le _⟩
  · rw [hsurvivors]
    apply List.mergeSort_perm
  · rw [hsurvivors]
    apply (List.pairwise_mergeSort TestResult.noLater_trans TestResult.noLater_total _).imp
    intro a b h
    apply TestResult.noLater_iff.mp h
  · intro file line
    rw [hsurvivors]
    apply filter_mergeSort TestResult.noLater_trans TestResult.noLater_total
    intro a b ha hb
    rw [decide_eq_true_eq] at ha hb
    rw [TestResult.noLater_iff, ha.1, ha.2, hb.1, hb.2]
    exact .inr ⟨rfl, Nat.le_refl _⟩
  · exact hbyFile
  · exact hbyType
  · have hlength : (survivorsOf results).length = (aggregate results).tally.survived := by
      rw [survivorsOf, ← List.countP_eq_length_filter]
      exact (number_aggregate results .survived).symm
    constructor
    · exact hbyFile.sum_eq.trans ((List.length_map _).trans hlength)
    · exact hbyType.sum_eq.trans ((List.length_map _).trans hlength)

/-- The numbers of a report are the same in whatever order the results came. -/
theorem aggregate_perm {results results' : List TestResult} (h : results'.Perm results) :
  (aggregate results').tally = (aggregate results).tally
    ∧ (aggregate results').score = (aggregate results).score
    ∧ (aggregate results').survivorsByFile = (aggregate results).survivorsByFile
    ∧ (aggregate results').survivorsByType = (aggregate results).survivorsByType
  := by
  have htally : (aggregate results').tally = (aggregate results).tally := by
    rw [tally_aggregate, tally_aggregate]
    apply Tally.ofStatuses_perm (h.map _)
  have hsurvivors : (survivorsOf results').Perm (survivorsOf results) := h.filter _
  have hsums := summarizes_aggregate results
  have hsums' := summarizes_aggregate results'
  refine ⟨htally, ?_, ?_, ?_⟩
  · rw [score_aggregate, score_aggregate, htally]
  · apply hsums'.survivorsByFile_tabulates.eq_of_perm hsums.survivorsByFile_tabulates
    apply hsurvivors.map
  · apply hsums'.survivorsByType_tabulates.eq_of_perm hsums.survivorsByType_tabulates
    apply hsurvivors.map

/-- A report sums up its results, in whatever order they come its numbers are the same, and a batch
with these results tells the same tally. -/
theorem aggregate_exact (results : List TestResult) :
  (aggregate results).Summarizes results
    ∧ ∀ results', results'.Perm results →
      (aggregate results').tally = (aggregate results).tally
        ∧ (aggregate results').score = (aggregate results).score
        ∧ (aggregate results').survivorsByFile = (aggregate results).survivorsByFile
        ∧ (aggregate results').survivorsByType = (aggregate results).survivorsByType
        ∧ ∀ outcome : BatchOutcome, outcome.results = results' →
          outcome.tally = (aggregate results).tally
  := by
  use summarizes_aggregate results
  intro results' h
  obtain ⟨htally, hscore, hfile, htype⟩ := aggregate_perm h
  refine ⟨htally, hscore, hfile, htype, ?_⟩
  rintro outcome rfl
  rw [← htally, tally_aggregate]
  rfl

/-- Three survivors in two files, two of them on one line and one without a kind, among a killed
mutant, a timeout and an error. -/
theorem aggregate_exact_ties :
  let result (id file : String) (line : Nat) (status : Status) (kind : Option MutationKind) :
      TestResult :=
    ⟨id, status, 0, "", "Negate if condition", file, line, kind, ""⟩
  let results := [result "M0" "b.go" 3 .survived none, result "M1" "a.go" 9 .survived (some .incDec),
    result "M2" "a.go" 2 .killed none, result "M3" "a.go" 9 .survived (some .constant),
    result "M4" "b.go" 1 .timeout none, result "M5" "a.go" 1 .error none]
  results.reverse.Perm results
    ∧ (aggregate results).tally = ⟨6, 1, 3, 1, 1⟩
    ∧ (aggregate results).tally.judged = 4
    ∧ (aggregate results.reverse).survivorsByFile = [("a.go", 2), ("b.go", 1)]
    ∧ numberUnder "condition_negation" (aggregate results.reverse).survivorsByType = 1
    ∧ ((aggregate results).survivors.filter fun r => r.file = "a.go" ∧ r.line = 9).map
        (·.mutationId) = ["M1", "M3"]
  := by
  intro result results
  obtain ⟨hsums, hperm⟩ := aggregate_exact results
  obtain ⟨-, -, hfile, htype, -⟩ := hperm results.reverse results.reverse_perm
  refine ⟨results.reverse_perm, by decide, ?_, ?_, ?_, ?_⟩
  · rw [hsums.judged_eq.2.2]
    decide
  · rw [hfile]
    decide
  · rw [htype, hsums.survivorsByType_tabulates.numberUnder_eq]
    decide
  · rw [hsums.survivors_stable]
    decide

end MutationTesting
