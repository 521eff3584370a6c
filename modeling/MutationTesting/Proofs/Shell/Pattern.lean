import Mathlib.Data.List.Pairwise
import MutationTesting.Proofs.Text.CharSet
import MutationTesting.Proofs.Text.Regex.Search
import MutationTesting.Shell.Pattern

/-!
# Patterns of the shell

`Pattern.Fits` says which texts are of a written pattern. A pattern that is read from a text
matches exactly those (`isMatch_ofText_iff`), and what it takes off the start or the end of a text
is the shortest or the longest part that is of it (`trimStart_ofText`, `trimEnd_ofText`).
-/

namespace MutationTesting.Shell.Pattern

open Text (CharSet Regex)
open Text.Regex

/-- A text is of a pattern. -/
inductive Fits : List Char → List Char → Prop where
  | nil : Fits [] []
  | quoted {c : Char} {ps cs : List Char} : Fits ps cs → Fits ('\\' :: c :: ps) (c :: cs)
  | any {c : Char} {ps cs : List Char} : Fits ps cs → Fits ('?' :: ps) (c :: cs)
  | many {ps before cs : List Char} : Fits ps cs → Fits ('*' :: ps) (before ++ cs)
  | set {set : CharSet} {c : Char} {ps rest cs : List Char} :
      CharSet.ofBrackets? '!' true ps = .ok (set, rest) → set.contains c = true → Fits rest cs →
      Fits ('[' :: ps) (c :: cs)
  /-- A bracket that begins no set stands for itself. -/
  | bracket {flaw : CharSet.Flaw} {ps cs : List Char} :
      CharSet.ofBrackets? '!' true ps = .error flaw → Fits ps cs → Fits ('[' :: ps) ('[' :: cs)
  | plain {c : Char} {ps cs : List Char} :
      c ≠ '?' → c ≠ '*' → c ≠ '[' → (c = '\\' → ps = []) → Fits ps cs → Fits (c :: ps) (c :: cs)

variable {text ps : List Char} {r : Regex} {set : CharSet} {i j k n fuel : Nat}

/-! ### Reading patterns -/

/-- Any characters are taken up to the end of a text at most. -/
theorem repeats_all_iff (hle : i ≤ text.length) :
  Repeats (Takes text (.one .all)) n i k ↔ k = i + n ∧ k ≤ text.length
  := by
  induction n generalizing i with
  | zero =>
    simp [Repeats]
    omega
  | succ n ih =>
    rw [Repeats]
    constructor
    · rintro ⟨l, ⟨rfl, c, hget, -⟩, hrest⟩
      have hlt := (List.getElem?_eq_some_iff.mp hget).1
      have := (ih hlt).mp hrest
      omega
    · rintro ⟨rfl, hlength⟩
      use i + 1, ⟨rfl, text[i], List.getElem?_eq_getElem (by omega), rfl⟩
      rw [ih (by omega)]
      omega

theorem drop_eq_cons_iff {c : Char} {cs : List Char} :
  text.drop i = c :: cs ↔ text[i]? = some c ∧ text.drop (i + 1) = cs
  := by
  rw [← List.head?_drop, ← List.tail_drop]
  cases text.drop i <;> simp

/-- An expression for one character and what follows on it, and a pattern that asks for the same. -/
theorem takes_one_iff_fits {qs : List Char}
    (h : ∀ cs, Fits qs cs ↔ ∃ c rest, cs = c :: rest ∧ set.contains c = true ∧ Fits ps rest)
    (hrest : i < text.length → (Takes text r (i + 1) text.length ↔ Fits ps (text.drop (i + 1)))) :
  Takes text (.both (.one set) r) i text.length ↔ Fits qs (text.drop i)
  := by
  rw [h]
  constructor
  · rintro ⟨k, ⟨rfl, c, hget, hcontains⟩, htakes⟩
    have hlt := (List.getElem?_eq_some_iff.mp hget).1
    exact ⟨c, _, drop_eq_cons_iff.mpr ⟨hget, rfl⟩, hcontains, (hrest hlt).mp htakes⟩
  · rintro ⟨c, rest, hdrop, hcontains, hfits⟩
    obtain ⟨hget, rfl⟩ := drop_eq_cons_iff.mp hdrop
    have hlt := (List.getElem?_eq_some_iff.mp hget).1
    exact ⟨i + 1, ⟨rfl, c, hget, hcontains⟩, (hrest hlt).mpr hfits⟩

/-- A part of a text up to its end is taken by an expression for a pattern exactly if it is of the
pattern. -/
theorem takes_expression_iff (hfuel : ps.length < fuel) (hle : i ≤ text.length) :
  Takes text (expression fuel ps) i text.length ↔ Fits ps (text.drop i)
  := by
  fun_induction expression fuel ps generalizing i with
  | case1 => omega
  | case2 =>
    have hnil : ∀ cs, Fits [] cs ↔ cs = [] := by
      intro cs
      constructor
      · rintro ⟨⟩
        rfl
      · rintro rfl
        exact .nil
    rw [hnil, List.drop_eq_nil_iff, Takes]
    omega
  | case3 fuel c ps ih =>
    simp only [List.length_cons] at hfuel
    apply takes_one_iff_fits _ fun hlt => ih (by omega) hlt
    intro cs
    constructor
    · rintro (_ | hfits | _ | _ | _ | _ | ⟨-, -, -, hlast, -⟩)
      · exact ⟨c, _, rfl, Text.CharSet.contains_single_iff.mpr rfl, hfits⟩
      · cases hlast rfl
    · rintro ⟨d, rest, rfl, hcontains, hfits⟩
      rw [Text.CharSet.contains_single_iff.mp hcontains]
      exact .quoted hfits
  | case4 fuel ps ih =>
    apply takes_one_iff_fits _ fun hlt => ih (by simpa using hfuel) hlt
    intro cs
    constructor
    · rintro (_ | _ | hfits | _ | _ | _ | ⟨hne, -, -, -, -⟩)
      · exact ⟨_, _, rfl, rfl, hfits⟩
      · cases hne rfl
    · rintro ⟨d, rest, rfl, -, hfits⟩
      exact .any hfits
  | case5 fuel ps ih =>
    have hmany : ∀ cs, Fits ('*' :: ps) cs ↔ ∃ before rest, cs = before ++ rest ∧ Fits ps rest := by
      intro cs
      constructor
      · rintro (_ | _ | _ | hfits | _ | _ | ⟨-, hne, -, -, -⟩)
        · exact ⟨_, _, rfl, hfits⟩
        · cases hne rfl
      · rintro ⟨before, rest, rfl, hfits⟩
        exact .many hfits
    have hrest : ∀ {k}, k ≤ text.length →
        (Takes text (expression fuel ps) k text.length ↔ Fits ps (text.drop k)) :=
      fun hk => ih (by simpa using hfuel) hk
    rw [hmany]
    constructor
    · rintro ⟨k, ⟨n, -, -, hrepeats⟩, htakes⟩
      obtain ⟨rfl, hk⟩ := (repeats_all_iff hle).mp hrepeats
      use (text.drop i).take n, text.drop (i + n)
      rw [← List.drop_drop, List.take_append_drop, List.drop_drop]
      use rfl, (hrest hk).mp htakes
    · rintro ⟨before, rest, hdrop, hfits⟩
      have hlength := congrArg List.length hdrop
      rw [List.length_drop, List.length_append] at hlength
      have hk : i + before.length ≤ text.length := by omega
      have hafter : text.drop (i + before.length) = rest := by
        rw [← List.drop_drop, hdrop, List.drop_left]
      use i + before.length
      constructor
      · refine ⟨before.length, Nat.zero_le _, by simp, ?_⟩
        rw [repeats_all_iff hle]
        use rfl
      · rw [hrest hk, hafter]
        exact hfits
  | case6 fuel ps set rest hset ih =>
    have hlength := Text.CharSet.length_ofBrackets?_lt hset
    simp only [List.length_cons] at hfuel
    apply takes_one_iff_fits _ fun hlt => ih (by omega) hlt
    intro cs
    constructor
    · rintro (_ | _ | _ | _ | ⟨hset', hcontains, hfits⟩ | ⟨hset', -⟩ | ⟨-, -, hne, -, -⟩)
      · cases hset.symm.trans hset'
        exact ⟨_, _, rfl, hcontains, hfits⟩
      · cases hset.symm.trans hset'
      · cases hne rfl
    · rintro ⟨d, rest, rfl, hcontains, hfits⟩
      exact .set hset hcontains hfits
  | case7 fuel ps flaw hset ih =>
    apply takes_one_iff_fits _ fun hlt => ih (by simpa using hfuel) hlt
    intro cs
    constructor
    · rintro (_ | _ | _ | _ | ⟨hset', -, -⟩ | ⟨-, hfits⟩ | ⟨-, -, hne, -, -⟩)
      · cases hset.symm.trans hset'
      · exact ⟨_, _, rfl, Text.CharSet.contains_single_iff.mpr rfl, hfits⟩
      · cases hne rfl
    · rintro ⟨d, rest, rfl, hcontains, hfits⟩
      rw [Text.CharSet.contains_single_iff.mp hcontains]
      exact .bracket hset hfits
  | case8 fuel c ps hquoted hany hmany hset ih =>
    apply takes_one_iff_fits _ fun hlt => ih (by simpa using hfuel) hlt
    intro cs
    constructor
    · rintro (_ | _ | _ | _ | _ | _ | ⟨-, -, -, -, hfits⟩)
      · cases hquoted _ _ rfl rfl
      · cases hany rfl
      · cases hmany rfl
      · cases hset rfl
      · cases hset rfl
      · exact ⟨_, _, rfl, Text.CharSet.contains_single_iff.mpr rfl, hfits⟩
    · rintro ⟨d, rest, rfl, hcontains, hfits⟩
      rw [Text.CharSet.contains_single_iff.mp hcontains]
      apply Fits.plain hany hmany hset _ hfits
      rintro rfl
      cases ps with
      | nil => rfl
      | cons p ps => cases hquoted _ _ rfl rfl

theorem repeats_expression (fuel : Nat) (ps : List Char) :
  (expression fuel ps).repeats = false
  := by
  fun_induction expression fuel ps with
  | case1 | case2 => rfl
  | case3 _ _ _ ih => exact ih
  | case4 _ _ ih => exact ih
  | case5 _ _ ih => exact ih
  | case6 _ _ _ _ _ ih => exact ih
  | case7 _ _ _ _ ih => exact ih
  | case8 _ _ _ _ _ _ _ ih => exact ih

/-- A pattern that is read from a text matches exactly the texts that are of it. -/
theorem isMatch_ofText_iff (pattern text : String) :
  (ofText pattern).isMatch text = true ↔ Fits pattern.toList text.toList
  := by
  have hfuel : pattern.toList.length < pattern.length + 1 := by
    rw [String.length_toList]
    apply Nat.lt_succ_self
  rw [isMatch, ofText, isMatch_compile_iff (repeats_expression _ _),
    takes_expression_iff hfuel (Nat.zero_le _), List.drop_zero]

/-! ### Taking matches off a text -/

/-- The numbers up to another one, from the largest one or from the smallest one on. -/
def upTo (falling : Bool) (n : Nat) : List Nat :=
  if falling then (List.range (n + 1)).reverse else List.range (n + 1)

theorem mem_upTo_iff {falling : Bool} {m : Nat} :
  m ∈ upTo falling n ↔ m ≤ n
  := by
  rw [← Nat.lt_succ_iff, upTo]
  split
  · rw [List.mem_reverse, List.mem_range]
  · rw [List.mem_range]

/-- The first number with a property is the largest or the smallest one. -/
theorem find?_upTo (falling : Bool) {f : Nat → Bool} {P : Nat → Prop}
    (hf : ∀ m, f m = true ↔ P m) (n : Nat) :
  ((upTo falling n).find? f = none ∧ ∀ m ≤ n, ¬P m)
    ∨ ∃ m ≤ n, (upTo falling n).find? f = some m ∧ P m
      ∧ ∀ k ≤ n, P k → if falling then k ≤ m else m ≤ k
  := by
  cases h : (upTo falling n).find? f with
  | none =>
    left
    use rfl
    intro m hm hP
    apply List.find?_eq_none.mp h m (mem_upTo_iff.mpr hm) ((hf m).mpr hP)
  | some m =>
    right
    have hordered : (upTo falling n).Pairwise fun a b => if falling then b ≤ a else a ≤ b := by
      cases falling with
      | false => apply List.pairwise_le_range
      | true =>
        rw [upTo, if_pos rfl, List.pairwise_reverse]
        apply List.pairwise_le_range
    obtain ⟨hm, before, after, hparts, hbefore⟩ := List.find?_eq_some_iff_append.mp h
    rw [hparts, List.pairwise_append] at hordered
    use m, mem_upTo_iff.mp (List.mem_of_find?_eq_some h), rfl, (hf m).mp hm
    intro k hk hP
    have hmem : k ∈ before ++ m :: after := hparts ▸ mem_upTo_iff.mpr hk
    obtain hmem | hmem := List.mem_append.mp hmem
    · have hnot := hbefore k hmem
      rw [(hf k).mpr hP] at hnot
      cases hnot
    · obtain rfl | hmem := List.mem_cons.mp hmem
      · simp
      · apply List.rel_of_pairwise_cons hordered.2.1 hmem

theorem isMatch_iff_fits (pattern : String) (cs : List Char) :
  Regex.isMatch (ofText pattern) cs = true ↔ Fits pattern.toList cs
  := by
  have hmatch := isMatch_ofText_iff pattern (String.ofList cs)
  rwa [isMatch, String.toList_ofList] at hmatch

/-- What is taken off the start of a text is the longest or the shortest part that is of a
pattern, if there is one. -/
theorem trimStart_ofText (pattern text : String) (longest : Bool) :
  ((ofText pattern).trimStart longest text = text
      ∧ ∀ n ≤ text.toList.length, ¬Fits pattern.toList (text.toList.take n))
    ∨ ∃ n ≤ text.toList.length,
      (ofText pattern).trimStart longest text = String.ofList (text.toList.drop n)
      ∧ Fits pattern.toList (text.toList.take n)
      ∧ ∀ k ≤ text.toList.length, Fits pattern.toList (text.toList.take k) →
        if longest then k ≤ n else n ≤ k
  := by
  have htrim : (ofText pattern).trimStart longest text
      = ((upTo longest text.toList.length).find? fun n =>
          Regex.isMatch (ofText pattern) (text.toList.take n)).elim text
            fun n => String.ofList (text.toList.drop n) := by
    simp only [trimStart, upTo]
    split <;> simp only [*, Option.elim_some, Option.elim_none]
  rw [htrim]
  obtain ⟨hfind, hnone⟩ | ⟨n, hn, hfind, hbest⟩ :=
    find?_upTo longest (fun n => isMatch_iff_fits pattern (text.toList.take n))
      text.toList.length
  · left
    rw [hfind]
    use rfl
  · right
    rw [hfind]
    use n, hn, rfl

/-- What is taken off the end of a text is the longest or the shortest part that is of a pattern,
if there is one. -/
theorem trimEnd_ofText (pattern text : String) (longest : Bool) :
  ((ofText pattern).trimEnd longest text = text
      ∧ ∀ n ≤ text.toList.length, ¬Fits pattern.toList (text.toList.drop n))
    ∨ ∃ n ≤ text.toList.length,
      (ofText pattern).trimEnd longest text = String.ofList (text.toList.take n)
      ∧ Fits pattern.toList (text.toList.drop n)
      ∧ ∀ k ≤ text.toList.length, Fits pattern.toList (text.toList.drop k) →
        if longest then n ≤ k else k ≤ n
  := by
  have htrim : (ofText pattern).trimEnd longest text
      = ((upTo (!longest) text.toList.length).find? fun n =>
          Regex.isMatch (ofText pattern) (text.toList.drop n)).elim text
            fun n => String.ofList (text.toList.take n) := by
    have hlengths : (if longest then List.range (text.toList.length + 1)
        else (List.range (text.toList.length + 1)).reverse) = upTo (!longest) text.toList.length := by
      cases longest <;> rfl
    simp only [trimEnd, hlengths]
    split <;> simp only [*, Option.elim_some, Option.elim_none]
  rw [htrim]
  obtain ⟨hfind, hnone⟩ | ⟨n, hn, hfind, hfits, hbest⟩ :=
    find?_upTo (!longest) (fun n => isMatch_iff_fits pattern (text.toList.drop n))
      text.toList.length
  · left
    rw [hfind]
    use rfl
  · right
    rw [hfind]
    use n, hn, rfl, hfits
    cases longest <;> exact hbest

end MutationTesting.Shell.Pattern
