import Mathlib.Data.List.Basic
import Mathlib.Tactic.Common
import MutationTesting.Proofs.Diff.Script

/-!
# The rows of a line difference

A text is its lines one after the other, and `Lined` says which lines these are. A difference is
printed as rows, each of which has the number and the text of a changed line. `Faithful` says
that rows tell two lists of lines apart: they carry lines of the two, in their order, and the
lines that no row carries are the same in both. The rows that are printed for two texts are
faithful to their lines, and there are none exactly for equal texts (`lineDiff_faithful`).
-/

namespace MutationTesting.Diff

/-! ### Lines -/

/-- A text without the characters that end a line. -/
def Plain (line : List Char) : Prop := '\n' ∉ line ∧ '\r' ∉ line

/-- A text and its lines. Each line but the last has its end, which is `\n`, `\r\n`, or a `\r` that
no `\n` follows, and the last one is not empty if it has none. -/
inductive Lined : List Char → List (List Char) → Prop where
  | nil : Lined [] []
  | last {line : List Char} (hline : line ≠ []) (hplain : Plain line) : Lined line [line]
  | newline {line rest : List Char} {lines : List (List Char)} (hplain : Plain line)
      (hrest : Lined rest lines) :
    Lined (line ++ '\n' :: rest) ((line ++ ['\n']) :: lines)
  | both {line rest : List Char} {lines : List (List Char)} (hplain : Plain line)
      (hrest : Lined rest lines) :
    Lined (line ++ '\r' :: '\n' :: rest) ((line ++ ['\r', '\n']) :: lines)
  | carriage {line rest : List Char} {lines : List (List Char)} (hplain : Plain line)
      (hnewline : rest.head? ≠ some '\n') (hrest : Lined rest lines) :
    Lined (line ++ '\r' :: rest) ((line ++ ['\r']) :: lines)

/-- Puts a character before the first line. -/
def consFirst (c : Char) : List (List Char) → List (List Char)
  | [] => [[c]]
  | line :: rest => (c :: line) :: rest

theorem plain_nil : Plain [] := by simp [Plain]

theorem plain_cons_iff {c : Char} {line : List Char} :
  Plain (c :: line) ↔ (c ≠ '\n' ∧ c ≠ '\r') ∧ Plain line
  := by
  simp only [Plain, List.mem_cons, not_or]
  grind

theorem lines_cons {c : Char} (hc : c ≠ '\n' ∧ c ≠ '\r') (cs : List Char) :
  lines (c :: cs) = consFirst c (lines cs)
  := by
  rw [lines]
  · simp only [hc, decide_false, Bool.or_self, Bool.false_eq_true, if_false]
    cases lines cs <;> rfl
  · rintro _ rfl rfl
    exact hc.2 rfl

theorem lines_carriage {rest : List Char} (hnewline : rest.head? ≠ some '\n') :
  lines ('\r' :: rest) = ['\r'] :: lines rest
  := by
  rw [lines]
  · rfl
  · rintro cs - rfl
    exact hnewline rfl

theorem lines_append {line : List Char} (hplain : Plain line) {cs first : List Char}
    {rest : List (List Char)} (h : lines cs = first :: rest) :
  lines (line ++ cs) = (line ++ first) :: rest
  := by
  induction line with
  | nil => exact h
  | cons c line ih =>
    obtain ⟨hc, hplain⟩ := plain_cons_iff.mp hplain
    rw [List.cons_append, lines_cons hc, ih hplain]
    rfl

theorem lines_of_plain {line : List Char} (hline : line ≠ []) (hplain : Plain line) :
  lines line = [line]
  := by
  induction line with
  | nil => contradiction
  | cons c line ih =>
    obtain ⟨hc, hplain⟩ := plain_cons_iff.mp hplain
    rw [lines_cons hc]
    cases line with
    | nil => rfl
    | cons d line => rw [ih (List.cons_ne_nil _ _) hplain, consFirst]

theorem Lined.consFirst {c : Char} (hc : c ≠ '\n' ∧ c ≠ '\r') {cs : List Char}
    {ls : List (List Char)} (h : Lined cs ls) :
  Lined (c :: cs) (consFirst c ls)
  := by
  cases h with
  | nil => exact .last (List.cons_ne_nil _ _) (plain_cons_iff.mpr ⟨hc, plain_nil⟩)
  | last hline hplain => exact .last (List.cons_ne_nil _ _) (plain_cons_iff.mpr ⟨hc, hplain⟩)
  | newline hplain hrest => exact .newline (plain_cons_iff.mpr ⟨hc, hplain⟩) hrest
  | both hplain hrest => exact .both (plain_cons_iff.mpr ⟨hc, hplain⟩) hrest
  | carriage hplain hnewline hrest =>
    exact .carriage (plain_cons_iff.mpr ⟨hc, hplain⟩) hnewline hrest

theorem lined_lines (cs : List Char) :
  Lined cs (lines cs)
  := by
  fun_induction lines cs with
  | case1 => exact .nil
  | case2 cs ih => exact .both plain_nil ih
  | case3 c cs hboth hend ih =>
    simp only [Bool.or_eq_true, decide_eq_true_eq] at hend
    obtain rfl | rfl := hend
    · exact .newline plain_nil ih
    · apply Lined.carriage plain_nil _ ih
      intro hnewline
      obtain ⟨cs', rfl⟩ := List.head?_eq_some_iff.mp hnewline
      exact hboth cs' rfl rfl
  | case4 c cs _ hend hlines ih =>
    rw [hlines] at ih
    exact ih.consFirst (by simpa using hend)
  | case5 c cs _ hend line rest hlines ih =>
    rw [hlines] at ih
    exact ih.consFirst (by simpa using hend)

/-- A text has no other lines than those that it is parted into. -/
theorem lined_iff {cs : List Char} {ls : List (List Char)} :
  Lined cs ls ↔ lines cs = ls
  := by
  constructor
  · intro h
    induction h with
    | nil => rfl
    | last hline hplain => exact lines_of_plain hline hplain
    | newline hplain _ ih =>
      apply lines_append hplain
      rw [← ih]
      rfl
    | both hplain _ ih =>
      apply lines_append hplain
      rw [← ih]
      rfl
    | carriage hplain hnewline _ ih =>
      apply lines_append hplain
      rw [← ih]
      exact lines_carriage hnewline
  · rintro rfl
    exact lined_lines cs

/-- A text is its lines one after the other. -/
theorem Lined.flatten {cs : List Char} {ls : List (List Char)} (h : Lined cs ls) :
  ls.flatten = cs
  := by
  induction h with
  | nil => rfl
  | last => simp
  | newline _ _ ih => simp [ih]
  | both _ _ ih => simp [ih]
  | carriage _ _ _ ih => simp [ih]

/-! ### Rows -/

/-- The sign of the rows that carry lines of one text. -/
def Side.sign : Side → Char
  | .old => '-'
  | .new => '+'

/-- The one of two things that belongs to a side. -/
def Side.choose {α : Type} : Side → α → α → α
  | .old, x, _ => x
  | .new, _, y => y

/-- A changed line with its number, counted from 1 in the text that it is of. -/
structure Row where
  side : Side
  number : Nat
  line : List Char

namespace Row

/-- A row as it is printed: `-i: line` or `+j: line`, with `\n` after a line that ends in neither
`\n` nor `\r`. -/
def text (r : Row) : List Char :=
  r.side.sign :: (toString r.number).toList ++ [':', ' ']
    ++ if r.line.getLast? ∈ [some '\n', some '\r'] then r.line else r.line ++ ['\n']

theorem row_eq_text (r : Row) :
  row r.side.sign r.number r.line = r.text
  := by
  simp only [row, text]
  by_cases hended : r.line.getLast? ∈ [some '\n', some '\r'] <;>
    simp_all

theorem text_ne_nil (r : Row) :
  r.text ≠ []
  := by
  simp [text]

theorem flatMap_text_eq_nil_iff {rs : List Row} :
  rs.flatMap text = [] ↔ rs = []
  := by
  cases rs <;> simp [text_ne_nil]

end Row

/-- The rows that carry lines of one text, the first of which has this number. -/
def numbered (side : Side) (first : Nat) (ls : List (List Char)) : List Row :=
  (ls.zipIdx first).map fun (line, number) => ⟨side, number, line⟩

/-- The numbers of the lines of one text that rows carry. -/
def numbers (side : Side) (rs : List Row) : List Nat :=
  (rs.filter (·.side = side)).map Row.number

/-- The lines, counted from a number on, whose numbers are not among those given. -/
def remaining (first : Nat) (ns : List Nat) (ls : List (List Char)) : List (List Char) :=
  ((ls.zipIdx first).filter (·.2 ∉ ns)).map Prod.fst

section

variable {side : Side} {first : Nat}

theorem rows_eq (side : Side) (first : Nat) (ls : List (List Char)) :
  rows side.sign first ls = (numbered side first ls).flatMap Row.text
  := by
  simp [rows, numbered, List.flatMap_map, ← Row.row_eq_text]

@[simp] theorem numbered_nil :
  numbered side first [] = []
  := rfl

theorem numbered_append (xs ys : List (List Char)) :
  numbered side first (xs ++ ys)
    = numbered side first xs ++ numbered side (first + xs.length) ys
  := by
  simp [numbered, List.zipIdx_append]

theorem map_number_numbered (ls : List (List Char)) :
  (numbered side first ls).map Row.number = List.range' first ls.length
  := by
  rw [← List.zipIdx_map_snd first ls, numbered, List.map_map]
  rfl

theorem of_mem_numbered {ls : List (List Char)} {r : Row} (h : r ∈ numbered side first ls) :
  r.side = side ∧ first ≤ r.number ∧ ls[r.number - first]? = some r.line
  := by
  obtain ⟨⟨line, number⟩, hmem, rfl⟩ := List.mem_map.mp h
  exact ⟨rfl, List.mk_mem_zipIdx_iff_le_and_getElem?_sub.mp hmem⟩

theorem filter_numbered (side' : Side) (ls : List (List Char)) :
  (numbered side' first ls).filter (·.side = side)
    = if side' = side then numbered side' first ls else []
  := by
  split
  · next hside =>
    apply List.filter_eq_self.mpr
    intro r hmem
    simp [(of_mem_numbered hmem).1, hside]
  · next hside =>
    apply List.filter_eq_nil_iff.mpr
    intro r hmem
    simp [(of_mem_numbered hmem).1, hside]

theorem remaining_nil (ls : List (List Char)) :
  remaining first [] ls = ls
  := by
  simp [remaining]

theorem remaining_range' (ls : List (List Char)) :
  remaining first (List.range' first ls.length) ls = []
  := by
  simp only [remaining, List.map_eq_nil_iff, List.filter_eq_nil_iff]
  rintro ⟨line, number⟩ hmem
  have hnumber : number ∈ (ls.zipIdx first).map Prod.snd := List.mem_map_of_mem hmem
  rw [List.zipIdx_map_snd] at hnumber
  simpa using hnumber

/-- What remains of two lists in a row is told by the numbers of each. -/
theorem remaining_append {xs ys : List (List Char)} {ns ms : List Nat}
    (hns : ∀ n ∈ ns, n < first + xs.length) (hms : ∀ m ∈ ms, first + xs.length ≤ m) :
  remaining first (ns ++ ms) (xs ++ ys)
    = remaining first ns xs ++ remaining (first + xs.length) ms ys
  := by
  simp only [remaining, List.zipIdx_append, List.filter_append, List.map_append]
  congr 2
  · apply List.filter_congr
    rintro ⟨line, number⟩ hmem
    have hlt : number < first + xs.length := List.snd_lt_add_of_mem_zipIdx hmem
    have hout : number ∉ ms := fun h => Nat.not_le_of_lt hlt (hms number h)
    simp [hout]
  · apply List.filter_congr
    rintro ⟨line, number⟩ hmem
    have hle : first + xs.length ≤ number := List.le_snd_of_mem_zipIdx hmem
    have hout : number ∉ ns := fun h => Nat.not_lt_of_le hle (hns number h)
    simp [hout]

end

/-! ### The rows of a script -/

/-- The elements of one list that a run changes. -/
def Hunk.changed {α : Type} : Side → Hunk α → List α
  | .old, .delete xs => xs
  | .new, .insert xs => xs
  | _, _ => []

/-- The elements that a run keeps. -/
def Hunk.unchanged {α : Type} : Hunk α → List α
  | .keep xs => xs
  | _ => []

/-- The rows that a script is printed as from given line numbers on, after those that wait. -/
def rowsFrom (old new : Nat) (pending : List Row) : Script (List Char) → List Row
  | [] => pending
  | .keep xs :: script => pending ++ rowsFrom (old + xs.length) (new + xs.length) [] script
  | .delete xs :: script =>
    numbered .old old xs ++ rowsFrom (old + xs.length) new pending script
  | .insert xs :: script =>
    rowsFrom old (new + xs.length) (pending ++ numbered .new new xs) script

/-- The rows of one text among those of a script. -/
def changes (side : Side) : Nat → Script (List Char) → List Row
  | _, [] => []
  | first, hunk :: script =>
    numbered side first (hunk.changed side) ++ changes side (first + (hunk.on side).length) script

theorem printFrom_eq (old new : Nat) (pending : List Row) (script : Script (List Char)) :
  printFrom old new (pending.flatMap Row.text) script
    = (rowsFrom old new pending script).flatMap Row.text
  := by
  fun_induction rowsFrom old new pending script with
  | case1 => rfl
  | case2 old new pending xs script ih =>
    rw [printFrom, List.flatMap_append, ← ih, List.flatMap_nil]
  | case3 old new pending xs script ih =>
    rw [printFrom, List.flatMap_append, ← ih, ← rows_eq, Side.sign]
  | case4 old new pending xs script ih =>
    rw [printFrom, ← ih, List.flatMap_append, ← rows_eq, Side.sign]

/-- Of the rows of a script, those of one text are the lines of it that the script changes, in
their order. -/
theorem filter_rowsFrom (side : Side) (old new : Nat) {pending : List Row}
    (script : Script (List Char)) (hpending : ∀ r ∈ pending, r.side = .new) :
  (rowsFrom old new pending script).filter (·.side = side)
    = pending.filter (·.side = side) ++ changes side (side.choose old new) script
  := by
  fun_induction rowsFrom old new pending script with
  | case1 => simp [changes]
  | case2 old new pending xs script ih =>
    rw [List.filter_append, ih (by simp)]
    cases side <;> simp [changes, Side.choose, Hunk.changed]
  | case3 old new pending xs script ih =>
    rw [List.filter_append, ih hpending, filter_numbered]
    -- the rows that wait are not of the text whose rows come first
    have hold : pending.filter (·.side = .old) = [] := by
      simpa using fun r hmem => by simp [hpending r hmem]
    cases side <;> simp [changes, Side.choose, Hunk.changed, hold]
  | case4 old new pending xs script ih =>
    have hwait : ∀ r ∈ pending ++ numbered .new new xs, r.side = .new := by
      intro r hmem
      obtain hmem | hmem := List.mem_append.mp hmem
      · exact hpending r hmem
      · exact (of_mem_numbered hmem).1
    rw [ih hwait, List.filter_append, filter_numbered]
    cases side <;> simp [changes, Side.choose, Hunk.changed]

theorem changes_sublist (side : Side) (first : Nat) (script : Script (List Char)) :
  (changes side first script).Sublist (numbered side first (script.on side))
  := by
  induction script generalizing first with
  | nil => simp [changes]
  | cons hunk script ih =>
    rw [changes, Script.on_cons, numbered_append]
    apply List.Sublist.append _ (ih _)
    cases hunk <;> cases side <;> simp [Hunk.changed]

/-- The lines of one text that a script does not change are those that it keeps. -/
theorem remaining_changes (side : Side) (first : Nat) (script : Script (List Char)) :
  remaining first ((changes side first script).map Row.number) (script.on side)
    = script.flatMap Hunk.unchanged
  := by
  induction script generalizing first with
  | nil => simp [remaining]
  | cons hunk script ih =>
    rw [changes, Script.on_cons, List.map_append, map_number_numbered, remaining_append, ih,
      List.flatMap_cons]
    · congr 1
      cases hunk <;> cases side <;>
        simp [Hunk.changed, Hunk.unchanged, remaining_nil, remaining_range']
    · intro n hn
      cases hunk <;> cases side <;> simp_all [Hunk.changed]
    · intro m hm
      have hm := (changes_sublist _ _ _).map Row.number |>.mem hm
      rw [map_number_numbered] at hm
      exact (List.mem_range'_1.mp hm).1

/-! ### Faithful rows -/

/-- Rows that tell two lists of lines apart: each carries the line that has its number, on each
side the numbers increase, and without the lines that are carried the two lists are equal. -/
structure Faithful (old new : List (List Char)) (rs : List Row) : Prop where
  carried : ∀ r ∈ rs, 1 ≤ r.number ∧ (r.side.choose old new)[r.number - 1]? = some r.line
  increasing : ∀ side, (numbers side rs).Pairwise (· < ·)
  remaining_eq : remaining 1 (numbers .old rs) old = remaining 1 (numbers .new rs) new

/-- Without rows there is nothing to tell apart. -/
theorem Faithful.eq_of_nil {old new : List (List Char)} (h : Faithful old new []) :
  old = new
  := by
  simpa [numbers, remaining_nil] using h.remaining_eq

/-- The rows of a script between two lists of lines are faithful to these. -/
theorem faithful_rowsFrom {old new : List (List Char)} {script : Script (List Char)}
    (hold : script.on .old = old) (hnew : script.on .new = new) :
  Faithful old new (rowsFrom 1 1 [] script)
  := by
  have hon (side : Side) : script.on side = side.choose old new := by
    cases side
    · exact hold
    · exact hnew
  have hchanges (side : Side) :
      (rowsFrom 1 1 [] script).filter (·.side = side) = changes side 1 script := by
    rw [filter_rowsFrom side 1 1 script (by simp)]
    cases side <;> rfl
  have hnumbers (side : Side) :
      numbers side (rowsFrom 1 1 [] script) = (changes side 1 script).map Row.number := by
    rw [numbers, hchanges]
  constructor
  · intro r hmem
    have hmem : r ∈ (rowsFrom 1 1 [] script).filter (·.side = r.side) := by
      simpa using hmem
    rw [hchanges] at hmem
    rw [← hon]
    exact (of_mem_numbered ((changes_sublist _ _ _).mem hmem)).2
  · intro side
    rw [hnumbers]
    apply List.Pairwise.sublist ((changes_sublist side 1 script).map Row.number)
    rw [map_number_numbered]
    exact List.pairwise_lt_range'
  · rw [hnumbers, hnumbers, ← hold, ← hnew, remaining_changes, remaining_changes]

end Diff

open Diff

theorem lineDiff_self (s : String) :
  lineDiff s s = ""
  := by
  rw [lineDiff, between_self, compact_kept]
  cases lines s.toList <;> simp [kept, printFrom]

/-- The difference of two texts is printed as rows that are faithful to their lines, and it is
empty exactly if the texts are equal. -/
theorem lineDiff_faithful (old new : String) :
  (∃ (oldLines newLines : List (List Char)) (rs : List Row),
    Lined old.toList oldLines ∧ Lined new.toList newLines
      ∧ (lineDiff old new).toList = rs.flatMap Row.text
      ∧ Faithful oldLines newLines rs)
    ∧ (lineDiff old new = "" ↔ old = new)
  := by
  let script := (Script.between (lines old.toList) (lines new.toList)).compact
  let rs := rowsFrom 1 1 [] script
  obtain ⟨hold, hnew⟩ := on_between (lines old.toList) (lines new.toList)
  have hfaithful : Faithful (lines old.toList) (lines new.toList) rs :=
    faithful_rowsFrom (by rw [on_compact, hold]) (by rw [on_compact, hnew])
  have hprinted : (lineDiff old new).toList = rs.flatMap Row.text := by
    rw [lineDiff, String.toList_ofList, ← printFrom_eq]
    rfl
  refine ⟨⟨_, _, rs, lined_iff.mpr rfl, lined_iff.mpr rfl, hprinted, hfaithful⟩, ?_, ?_⟩
  · intro hempty
    rw [hempty] at hprinted
    have hnone : rs = [] := Row.flatMap_text_eq_nil_iff.mp hprinted.symm
    rw [hnone] at hfaithful
    have hlined := lined_lines old.toList
    rw [hfaithful.eq_of_nil] at hlined
    apply String.toList_inj.mp
    rw [← hlined.flatten, (lined_lines new.toList).flatten]
  · rintro rfl
    exact lineDiff_self old

/-- The last line is given the end that it lacks. -/
example : lineDiff "a\r\nb" "a\r\nc\n" = "-2: b\n+2: c\n" := by decide +kernel

end MutationTesting
