import Mathlib.Data.List.Basic
import Mathlib.Tactic.Common
import Mathlib.Tactic.IntervalCases
import MutationTesting.Json.Number
import MutationTesting.Proofs.Duration

/-!
# Numbers as they are printed

A `Json.Numeral` is a number as the format has it: a sign, digits without a zero before others,
digits after a point, and an exponent. It is read back, whatever follows that cannot go on with a
number. Whole numbers are printed as numerals, and so are digits with a point among them.
-/

namespace MutationTesting.Json

/-- A number as it is written. -/
structure Numeral where
  negative : Bool
  whole : List Char
  /-- The digits after the point; there is no point without one. -/
  fraction : List Char
  /-- Whether the exponent is negative, and its digits. -/
  exponent : Option (Bool × List Char)
  whole_ne_nil : whole ≠ []
  isDigit_whole : ∀ c ∈ whole, isDigit c = true
  leading : whole.head? = some '0' → whole = ['0']
  isDigit_fraction : ∀ c ∈ fraction, isDigit c = true
  isDigit_exponent : ∀ e ∈ exponent, e.2 ≠ [] ∧ ∀ c ∈ e.2, isDigit c = true

namespace Numeral

/-- The point and the digits after it. -/
def fractionText (n : Numeral) : List Char := if n.fraction = [] then [] else '.' :: n.fraction

/-- The exponent with its sign. -/
def exponentText (n : Numeral) : List Char :=
  n.exponent.elim [] fun (negative, digits) => 'e' :: (if negative then '-' else '+') :: digits

/-- A number as it is written. -/
def text (n : Numeral) : List Char :=
  (if n.negative then ['-'] else []) ++ n.whole ++ n.fractionText ++ n.exponentText

end Numeral

/-- Whether a character can go on with a number. -/
def isNumeral (c : Char) : Bool := isDigit c || c == '.' || c == 'e' || c == 'E'

/-- A text that does not go on with a number that stands before it. -/
def Ends (rest : List Char) : Prop := ∀ c ∈ rest.head?, isNumeral c = false

/-! ### Reading numerals -/

/-- Digits are parted off from what starts with none. -/
theorem digits?_append {digits rest : List Char} (hne : digits ≠ [])
    (hdigits : ∀ c ∈ digits, isDigit c = true) (hrest : ∀ c ∈ rest.head?, isDigit c = false) :
  digits? (digits ++ rest) = some (digits, rest)
  := by
  have htake : rest.takeWhile isDigit = [] := by
    cases rest with
    | nil => rfl
    | cons c cs => rw [List.takeWhile_cons_of_neg (by simp [hrest c rfl])]
  have hdrop : rest.dropWhile isDigit = rest := by
    cases rest with
    | nil => rfl
    | cons c cs => rw [List.dropWhile_cons_of_neg (by simp [hrest c rfl])]
  rw [digits?, List.takeWhile_append_of_pos hdigits, htake, List.append_nil,
    List.dropWhile_append_of_pos hdigits, hdrop, if_neg (by simpa using hne)]

namespace Numeral

variable (n : Numeral) {rest : List Char}

theorem wholePart?_append (hrest : ∀ c ∈ rest.head?, isDigit c = false) :
  wholePart? (n.whole ++ rest) = some (n.whole, rest)
  := by
  by_cases hzero : n.whole.head? = some '0'
  · rw [n.leading hzero, List.singleton_append, wholePart?]
    cases rest with
    | nil => rfl
    | cons c cs => rw [List.head?_cons, Option.any_some, hrest c rfl, if_neg (by simp)]
  · have hparts : ∀ cs, n.whole ++ rest ≠ '0' :: cs := by
      intro cs heq
      apply hzero
      rw [← List.head?_append_of_ne_nil n.whole n.whole_ne_nil, heq]
      rfl
    rw [wholePart?]
    · apply digits?_append n.whole_ne_nil n.isDigit_whole hrest
    · exact hparts

theorem fractionPart?_append (hrest : ∀ c ∈ rest.head?, isDigit c = false ∧ c ≠ '.') :
  fractionPart? (n.fractionText ++ rest) = some (n.fractionText, rest)
  := by
  unfold fractionText
  split
  · rw [List.nil_append, fractionPart?]
    rintro cs rfl
    exact (hrest '.' rfl).2 rfl
  · next hne =>
    rw [List.cons_append, fractionPart?, digits?_append hne n.isDigit_fraction]
    · rfl
    · exact fun c hc => (hrest c hc).1

theorem exponentPart?_append (hrest : Ends rest) :
  exponentPart? (n.exponentText ++ rest) = some (n.exponentText, rest)
  := by
  cases hexponent : n.exponent with
  | none =>
    rw [exponentText, hexponent, Option.elim_none, List.nil_append]
    cases rest with
    | nil => rfl
    | cons c cs =>
      have hc := hrest c rfl
      simp only [isNumeral, Bool.or_eq_false_iff] at hc
      unfold exponentPart?
      dsimp only
      rw [hc.1.2, hc.2]
      rfl
  | some e =>
    obtain ⟨negative, digits⟩ := e
    obtain ⟨hne, hdigits⟩ := n.isDigit_exponent _ (Option.mem_def.mpr hexponent)
    have hend : ∀ c ∈ rest.head?, isDigit c = false := by
      intro c hc
      have hc := hrest c hc
      simp only [isNumeral, Bool.or_eq_false_iff] at hc
      exact hc.1.1.1
    rw [exponentText, hexponent]
    cases negative <;> simp [exponentPart?, digits?_append hne hdigits hend]

/-- What follows the digits of a number before the point starts with no digit. -/
theorem head?_exponentText (hrest : Ends rest) :
  ∀ c ∈ (n.exponentText ++ rest).head?, isDigit c = false ∧ c ≠ '.'
  := by
  intro c hc
  unfold exponentText at hc
  cases hexponent : n.exponent with
  | none =>
    rw [hexponent] at hc
    have hc := hrest c hc
    simp only [isNumeral, Bool.or_eq_false_iff, beq_eq_false_iff_ne] at hc
    exact ⟨hc.1.1.1, hc.1.1.2⟩
  | some e =>
    rw [hexponent] at hc
    obtain rfl := Option.mem_some_iff.mp hc
    exact ⟨by decide, by decide⟩

theorem head?_fractionText (hrest : Ends rest) :
  ∀ c ∈ (n.fractionText ++ (n.exponentText ++ rest)).head?, isDigit c = false
  := by
  intro c hc
  unfold fractionText at hc
  split at hc
  · exact (n.head?_exponentText hrest c hc).1
  · obtain rfl := Option.mem_some_iff.mp hc
    decide

/-- The first character of a number is a minus or a digit. -/
theorem exists_text_eq_cons :
  ∃ c cs, n.text = c :: cs ∧ (c = '-' ∨ isDigit c = true)
  := by
  unfold text
  split
  · exact ⟨_, _, rfl, Or.inl rfl⟩
  · obtain ⟨c, cs, hwhole⟩ := List.exists_cons_of_ne_nil n.whole_ne_nil
    rw [hwhole]
    refine ⟨c, _, rfl, Or.inr ?_⟩
    apply n.isDigit_whole
    simp [hwhole]

/-- A number is read back, whatever follows that does not go on with it. -/
theorem number?_append (hrest : Ends rest) :
  number? (n.text ++ rest) = some (n.text, rest)
  := by
  have hparts : ∀ sign : List Char,
      ((wholePart? (n.whole ++ (n.fractionText ++ (n.exponentText ++ rest)))).bind fun whole =>
        (fractionPart? whole.2).bind fun fraction => (exponentPart? fraction.2).bind fun exponent =>
          some (sign ++ whole.1 ++ fraction.1 ++ exponent.1, exponent.2))
      = some (sign ++ n.whole ++ n.fractionText ++ n.exponentText, rest) := by
    intro sign
    rw [n.wholePart?_append (n.head?_fractionText hrest), Option.bind_some,
      n.fractionPart?_append (n.head?_exponentText hrest), Option.bind_some,
      n.exponentPart?_append hrest, Option.bind_some]
  unfold text
  cases hnegative : n.negative with
  | true =>
    simp only [if_true, List.append_assoc, List.singleton_append, number?]
    simpa using hparts ['-']
  | false =>
    have hsign : ∀ cs, n.whole ++ (n.fractionText ++ (n.exponentText ++ rest)) ≠ '-' :: cs := by
      intro cs heq
      obtain ⟨c, digits, hwhole⟩ := List.exists_cons_of_ne_nil n.whole_ne_nil
      rw [hwhole, List.cons_append, List.cons.injEq] at heq
      have hdigit := n.isDigit_whole c (by simp [hwhole])
      rw [heq.1] at hdigit
      contradiction
    simp only [Bool.false_eq_true, if_false, List.nil_append, List.append_assoc, number?]
    simpa using hparts []

end Numeral

/-! ### Whole numbers -/

theorem isDigit_of_mem_toDigits {n : Nat} {c : Char} (h : c ∈ Nat.toDigits 10 n) :
  isDigit c = true
  := Text.isDigit_of_mem_toDigits h

/-- Only the digits of zero start with a zero. -/
theorem eq_zero_of_head?_toDigits {n : Nat} (h : (Nat.toDigits 10 n).head? = some '0') :
  n = 0
  := by
  induction n using Nat.strongRecOn with
  | ind n ih =>
    by_cases hn : n < 10
    · rw [Nat.toDigits_of_lt_base hn] at h
      interval_cases n <;> first | rfl | contradiction
    · rw [Nat.toDigits_of_base_le (by decide) (by omega),
        List.head?_append_of_ne_nil _ Nat.toDigits_ne_nil] at h
      have hzero := ih (n / 10) (by omega) h
      omega

theorem toList_toString (n : Nat) :
  (toString n).toList = Nat.toDigits 10 n
  := by
  simp [toString, Nat.repr_eq_ofList_toDigits]

theorem length_toString (n : Nat) :
  (toString n).length = (Nat.toDigits 10 n).length
  := by
  rw [← String.length_toList, toList_toString]

/-- Digits that are those of a whole number. -/
structure Digits (cs : List Char) : Prop where
  ne_nil : cs ≠ []
  isDigit : ∀ c ∈ cs, isDigit c = true
  leading : cs.head? = some '0' → cs = ['0']

theorem digits_toString (n : Nat) :
  Digits (toString n).toList
  := by
  rw [toList_toString]
  refine ⟨Nat.toDigits_ne_nil, fun c => isDigit_of_mem_toDigits, ?_⟩
  intro hzero
  rw [eq_zero_of_head?_toDigits hzero]
  rfl

/-- A whole number as it is written. -/
def Numeral.ofNat (n : Nat) : Numeral where
  negative := false
  whole := (toString n).toList
  fraction := []
  exponent := none
  whole_ne_nil := (digits_toString n).ne_nil
  isDigit_whole := (digits_toString n).isDigit
  leading := (digits_toString n).leading
  isDigit_fraction := by simp
  isDigit_exponent := by simp

theorem Numeral.text_ofNat (n : Nat) :
  (ofNat n).text = (toString n).toList
  := by
  simp [text, ofNat, fractionText, exponentText]

/-- A whole number is read back if it fits into 64 bits. -/
theorem natural?_ofNat (n : Nat) :
  natural? (Json.ofNat n) = if n ≤ Text.maxWord then some n else none
  := by
  rw [Json.ofNat, natural?, word?, if_pos, toList_toString, Text.digits?_toDigits]
  rw [List.all_eq_true]
  exact (digits_toString n).isDigit

/-! ### Digits with a point -/

namespace Digits

variable {cs : List Char} (h : Digits cs)

include h

theorem isDigit_replicate_append (k : Nat) :
  ∀ c ∈ List.replicate k '0' ++ cs, Json.isDigit c = true
  := by
  intro c hc
  obtain hc | hc := List.mem_append.mp hc
  · rw [List.eq_of_mem_replicate hc]
    rfl
  · apply h.isDigit c hc

/-- All digits stand before the point, with zeros after them. -/
theorem exists_numeral_whole {k : Nat} (hk : cs = ['0'] → k = 0) :
  ∃ n : Numeral, n.negative = false ∧ n.whole = cs ++ List.replicate k '0' ∧ n.fraction = ['0']
    ∧ n.exponent = none ∧ n.text = cs ++ List.replicate k '0' ++ ['.', '0']
  := by
  refine ⟨⟨false, cs ++ List.replicate k '0', ['0'], none, by simp [h.ne_nil], ?_, ?_,
    by simp [Json.isDigit], by simp⟩, rfl, rfl, rfl, rfl, ?_⟩
  · intro c hc
    apply h.isDigit_replicate_append k c
    rwa [List.mem_append, or_comm, ← List.mem_append]
  · intro hzero
    rw [List.head?_append_of_ne_nil _ h.ne_nil] at hzero
    rw [hk (h.leading hzero), h.leading hzero]
    rfl
  · simp [Numeral.text, Numeral.fractionText, Numeral.exponentText]

/-- Some digits stand before the point. -/
theorem exists_numeral_parted {k : Nat} (hk : 0 < k) (hlength : k < cs.length) :
  ∃ n : Numeral, n.negative = false ∧ n.whole = cs.take k ∧ n.fraction = cs.drop k
    ∧ n.exponent = none ∧ n.text = cs.take k ++ '.' :: cs.drop k
  := by
  have hdrop : cs.drop k ≠ [] := by
    rw [Ne, List.drop_eq_nil_iff]
    omega
  have htake : cs.take k ≠ [] := by
    rw [Ne, List.take_eq_nil_iff, not_or]
    exact ⟨by omega, h.ne_nil⟩
  refine ⟨⟨false, cs.take k, cs.drop k, none, htake,
    fun c hc => h.isDigit c (List.mem_of_mem_take hc), ?_,
    fun c hc => h.isDigit c (List.mem_of_mem_drop hc), by simp⟩, rfl, rfl, rfl, rfl, ?_⟩
  · intro hzero
    rw [List.head?_take, if_neg (by omega)] at hzero
    have hone : cs.length = 1 := by rw [h.leading hzero, List.length_singleton]
    omega
  · simp [Numeral.text, Numeral.fractionText, Numeral.exponentText, hdrop]

/-- Zeros stand between the point and the digits. -/
theorem exists_numeral_small (k : Nat) :
  ∃ n : Numeral, n.negative = false ∧ n.whole = ['0'] ∧ n.fraction = List.replicate k '0' ++ cs
    ∧ n.exponent = none ∧ n.text = ['0', '.'] ++ List.replicate k '0' ++ cs
  := by
  refine ⟨⟨false, ['0'], List.replicate k '0' ++ cs, none, by simp, by simp [Json.isDigit],
    fun _ => rfl, h.isDigit_replicate_append k, by simp⟩, rfl, rfl, rfl, rfl, ?_⟩
  simp [Numeral.text, Numeral.fractionText, Numeral.exponentText, h.ne_nil]

/-- One digit stands before the point, and an exponent follows the others. -/
theorem exists_numeral_scientific (e : Int) :
  ∃ n : Numeral, n.negative = false ∧ n.whole = cs.take 1 ∧ n.fraction = cs.drop 1
    ∧ n.exponent = some (!decide (0 ≤ e), (toString e.natAbs).toList)
    ∧ n.text = (if cs.length = 1 then cs else cs.take 1 ++ '.' :: cs.drop 1)
      ++ ['e', if 0 ≤ e then '+' else '-'] ++ (toString e.natAbs).toList
  := by
  have hexponent := digits_toString e.natAbs
  refine ⟨⟨false, cs.take 1, cs.drop 1, some (!decide (0 ≤ e), (toString e.natAbs).toList),
    by simp [h.ne_nil], fun c hc => h.isDigit c (List.mem_of_mem_take hc), ?_,
    fun c hc => h.isDigit c (List.mem_of_mem_drop hc), ?_⟩, rfl, rfl, rfl, rfl, ?_⟩
  · intro hzero
    rw [List.head?_take, if_neg (by decide)] at hzero
    rw [h.leading hzero]
    rfl
  · rintro _ ⟨⟩
    exact ⟨hexponent.ne_nil, hexponent.isDigit⟩
  · obtain ⟨c, rest, rfl⟩ := List.exists_cons_of_ne_nil h.ne_nil
    by_cases he : 0 ≤ e
    · cases rest <;> simp [Numeral.text, Numeral.fractionText, Numeral.exponentText, he]
    · cases rest <;> simp [Numeral.text, Numeral.fractionText, Numeral.exponentText, he]

end Digits

end MutationTesting.Json
