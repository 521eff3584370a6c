import Mathlib.Data.Nat.Digits.Defs
import MutationTesting.Proofs.Duration
import MutationTesting.Text.Offset

/-!
# The written forms of durations

A duration is written as digits with a unit behind them and blanks around both (`IsWritten`), and
such a number `Denotes` a duration exactly, in nanoseconds. `Duration.parse` reads a text as a
duration just where it is one of these forms, neither the number nor the seconds need more than
64 bits, and the duration is the one that is denoted: nothing is rounded, and nothing wraps around.
-/

namespace MutationTesting

namespace Text

/-- The value of digits by their places, the last one of which is for ones. -/
def placeValue (digits : List Char) : Nat :=
  Nat.ofDigits 10 (digits.reverse.map fun c => c.toNat - '0'.toNat)

theorem digitsValue_eq_placeValue (digits : List Char) :
  digitsValue digits = placeValue digits
  := by
  rw [placeValue, Nat.ofDigits_eq_foldr, List.foldr_map, List.foldr_reverse, digitsValue]
  congr 1
  funext n c
  simp [Nat.add_comm]

theorem maxWord_eq :
  maxWord = 2 ^ 64 - 1
  := rfl

theorem digits?_eq_some_iff {cs : List Char} {value : Nat} :
  digits? cs = some value ↔ cs ≠ [] ∧ (∀ c ∈ cs, isDigit c = true)
    ∧ placeValue cs = value ∧ value ≤ 2 ^ 64 - 1
  := by
  rw [digits?, digitsValue_eq_placeValue, maxWord_eq]
  split_ifs with hno hfits
  · simp only [Bool.or_eq_true, List.isEmpty_iff, Bool.not_eq_true', List.all_eq_false] at hno
    rw [false_iff]
    rintro ⟨hne, hdigits, -, -⟩
    obtain rfl | ⟨c, hc, hnot⟩ := hno
    · exact hne rfl
    · exact hnot (hdigits c hc)
  · simp only [Bool.or_eq_true, List.isEmpty_iff, Bool.not_eq_true', not_or, Bool.not_eq_false,
      List.all_eq_true] at hno
    rw [Option.some.injEq]
    constructor
    · rintro rfl
      use hno.1, hno.2, rfl, hfits
    · rintro ⟨-, -, hvalue, -⟩
      apply hvalue
  · rw [false_iff]
    rintro ⟨-, -, rfl, hle⟩
    exact hfits hle

end Text

namespace Duration

/-- A duration lasts so many nanoseconds. -/
structure Lasts (d : Duration) (nanos : Nat) : Prop where
  normal : d.nanos < 1000000000
  total : d.toNanos = nanos

theorem lasts_seconds_iff {d : Duration} {n : Nat} :
  d.Lasts (n * 1000000000) ↔ d = ofSeconds n
  := by
  obtain ⟨secs, nanos⟩ := d
  rw [ofSeconds, Duration.mk.injEq]
  constructor
  · rintro ⟨hnormal, htotal⟩
    dsimp only [toNanos] at hnormal htotal
    omega
  · rintro ⟨rfl, rfl⟩
    constructor <;> simp [toNanos]

theorem lasts_millis_iff {d : Duration} {n : Nat} :
  d.Lasts (n * 1000000) ↔ d = ofMillis n
  := by
  obtain ⟨secs, nanos⟩ := d
  rw [ofMillis, Duration.mk.injEq]
  constructor
  · rintro ⟨hnormal, htotal⟩
    dsimp only [toNanos] at hnormal htotal
    omega
  · rintro ⟨rfl, rfl⟩
    constructor
    · dsimp only
      omega
    · dsimp only [toNanos]
      omega

/-- The units of whole seconds, with the seconds in them. -/
def wholeUnits : List (String × Nat) := [("", 1), ("s", 1), ("m", 60), ("h", 3600)]

theorem unitSeconds?_eq_some_iff {unit : String} {seconds : Nat} :
  unitSeconds? unit = some seconds ↔ (unit, seconds) ∈ wholeUnits
  := by
  constructor
  · intro h
    unfold unitSeconds? at h
    split at h <;> cases h <;> simp [wholeUnits]
  · intro h
    simp only [wholeUnits, List.mem_cons, Prod.mk.injEq, List.not_mem_nil, or_false] at h
    obtain ⟨rfl, rfl⟩ | ⟨rfl, rfl⟩ | ⟨rfl, rfl⟩ | ⟨rfl, rfl⟩ := h <;> rfl

/-- A text is a number in decimal digits, leading zeros among them or not, with a unit behind it and
blanks around both. -/
def IsWritten (text : String) (value : Nat) (unit : String) : Prop :=
  ∃ front digits back, text.toList = front ++ (digits ++ unit.toList) ++ back
    ∧ (∀ c ∈ front, Text.isBlank c = true) ∧ (∀ c ∈ back, Text.isBlank c = true)
    ∧ digits ≠ [] ∧ (∀ c ∈ digits, Text.isDigit c = true) ∧ Text.placeValue digits = value

/-- A number with a unit behind it denotes a duration of so many milliseconds, or of so many seconds
if they can be counted with 64 bits. -/
inductive Denotes (value : Nat) : String → Duration → Prop where
  | millis {d : Duration} : d.Lasts (value * 1000000) → Denotes value "ms" d
  | seconds {d : Duration} {unit : String} {seconds : Nat} : (unit, seconds) ∈ wholeUnits →
      value * seconds ≤ 2 ^ 64 - 1 → d.Lasts (value * seconds * 1000000000) → Denotes value unit d

/-- A unit starts neither with a blank nor with a digit, and does not end with one. -/
theorem Denotes.not_blank {value : Nat} {unit : String} {d : Duration} (h : Denotes value unit d) :
  ∀ c ∈ unit.toList, Text.isBlank c = false ∧ Text.isDigit c = false
  := by
  cases h with
  | millis => simp [Text.isBlank, Text.isDigit]
  | @seconds _ _ seconds hunit =>
    have hall : ∀ pair ∈ wholeUnits, ∀ c ∈ pair.1.toList,
        Text.isBlank c = false ∧ Text.isDigit c = false := by
      simp [wholeUnits, Text.isBlank, Text.isDigit]
    apply hall (unit, seconds) hunit

theorem parse_of_denotes {text unit : String} {value : Nat} {d : Duration}
    (hwritten : IsWritten text value unit) (hfits : value ≤ 2 ^ 64 - 1)
    (hdenotes : Denotes value unit d) :
  parse text = .ok d
  := by
  obtain ⟨front, digits, back, htext, hfront, hback, hne, hdigits, hvalue⟩ := hwritten
  obtain ⟨htrim, htake, hdrop⟩ := parts_of_written htext hfront hback hdigits hdenotes.not_blank
  have hnumber := Text.digits?_eq_some_iff.mpr ⟨hne, hdigits, hvalue, hfits⟩
  rw [parse, htrim, htake, hdrop, hnumber, String.ofList_toList]
  cases hdenotes with
  | millis hlasts =>
    rw [lasts_millis_iff.mp hlasts]
    rfl
  | @seconds _ _ seconds hunit hle hlasts =>
    have hmillis : unit ≠ "ms" := by
      rintro rfl
      revert hunit
      simp [wholeUnits]
    simp only
    rw [if_neg hmillis, unitSeconds?_eq_some_iff.mpr hunit]
    simp only
    rw [Text.maxWord_eq, if_pos hle, lasts_seconds_iff.mp hlasts]

theorem exists_denotes_of_parse {text : String} {d : Duration} (h : parse text = .ok d) :
  ∃ value unit, IsWritten text value unit ∧ value ≤ 2 ^ 64 - 1 ∧ Denotes value unit d
  := by
  obtain ⟨front, back, htext, hfront, hback⟩ := Text.exists_trim text.toList
  rw [parse] at h
  split at h
  · cases h
  · next value hnumber =>
    obtain ⟨hne, hdigits, hvalue, hfits⟩ := Text.digits?_eq_some_iff.mp hnumber
    use value, String.ofList ((Text.trim text.toList).dropWhile Text.isDigit)
    constructor
    · use front, (Text.trim text.toList).takeWhile Text.isDigit, back
      rw [String.toList_ofList, List.takeWhile_append_dropWhile]
      use htext, hfront, hback, hne, hdigits, hvalue
    use hfits
    split at h
    · next hunit =>
      cases h
      rw [hunit]
      exact .millis (lasts_millis_iff.mpr rfl)
    · split at h
      · cases h
      · next seconds hseconds =>
        split at h
        · next hle =>
          cases h
          exact .seconds (unitSeconds?_eq_some_iff.mp hseconds) hle (lasts_seconds_iff.mpr rfl)
        · cases h

/-- The texts that are read as a duration are those that are written as a number with a unit, both
of which fit into 64 bits, and what is read is the duration that these denote. The offset after the
digits, at which the text is cut, starts a character or ends the text, whatever the text is. -/
theorem parse_exact (text : String) :
  (∀ d, parse text = .ok d ↔
    ∃ value unit, IsWritten text value unit ∧ value ≤ 2 ^ 64 - 1 ∧ Denotes value unit d)
    ∧ (let trimmed := Text.trim text.toList
      Text.cut? (Text.byteLength (trimmed.takeWhile Text.isDigit)) trimmed
        = some (trimmed.takeWhile Text.isDigit, trimmed.dropWhile Text.isDigit))
  := by
  constructor
  · intro d
    constructor
    · apply exists_denotes_of_parse
    · rintro ⟨value, unit, hwritten, hfits, hdenotes⟩
      apply parse_of_denotes hwritten hfits hdenotes
  · intro trimmed
    have hcut := Text.cut?_append (trimmed.takeWhile Text.isDigit)
      (trimmed.dropWhile Text.isDigit)
    rwa [List.takeWhile_append_dropWhile] at hcut

end Duration

end MutationTesting
