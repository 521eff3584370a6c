import Mathlib.Tactic.Common
import MutationTesting.Proofs.Text.Trim
import MutationTesting.Settings

/-!
# Durations as they are written and read

A duration that is read is a whole number of milliseconds, `Duration.IsWhole`, whether it
stands on the command line or in a settings file. Written as that number it is read back, if
the number fits into 64 bits, and is refused otherwise.
-/

namespace MutationTesting

namespace Text

/-! ### Digits -/

theorem isDigit_of_mem_toDigits {n : Nat} {c : Char} (h : c ∈ Nat.toDigits 10 n) :
  isDigit c = true
  := by
  have hdigit := Nat.isDigit_of_mem_toDigits (by decide) (by decide) h
  rwa [Char.isDigit] at hdigit

/-- The digits of a number are read as that number, if it is none too large. -/
theorem digits?_toDigits (n : Nat) :
  digits? (Nat.toDigits 10 n) = if n ≤ maxWord then some n else none
  := by
  have hvalue : digitsValue (Nat.toDigits 10 n) = n :=
    Nat.ofDigitChars_toDigits (by decide) (by decide)
  have hdigits : (Nat.toDigits 10 n).all isDigit = true := by
    rw [List.all_eq_true]
    intro c hc
    exact isDigit_of_mem_toDigits hc
  rw [digits?, hvalue, hdigits]
  simp [Nat.toDigits_ne_nil]

theorem isBlank_of_isDigit {c : Char} (h : isDigit c = true) :
  isBlank c = false
  := by
  simp only [isDigit, Bool.and_eq_true, decide_eq_true_eq, Char.le_def] at h
  have hlow : 48 ≤ c.toNat := h.1
  have hhigh : c.toNat ≤ 57 := h.2
  simp [isBlank]
  omega

end Text

namespace Duration

/-- The duration is a whole number of milliseconds. -/
def IsWhole (d : Duration) : Prop :=
  ofMillis d.toMillis = d

instance (d : Duration) : Decidable d.IsWhole :=
  inferInstanceAs (Decidable (ofMillis d.toMillis = d))

theorem isWhole_ofMillis (n : Nat) :
  (ofMillis n).IsWhole
  := by
  rw [IsWhole, toMillis_ofMillis]

theorem isWhole_ofSeconds (n : Nat) :
  (ofSeconds n).IsWhole
  := by
  simp [IsWhole, ofSeconds, toMillis, ofMillis]

theorem isWhole_of_parse {text : String} {d : Duration} (h : (parse text).toOption = some d) :
  d.IsWhole
  := by
  cases hparse : parse text with
  | error e =>
    rw [hparse] at h
    contradiction
  | ok d' =>
    rw [hparse] at h
    cases h
    simp only [parse] at hparse
    split at hparse
    · cases hparse
    · split at hparse
      · cases hparse
        apply isWhole_ofMillis
      · split at hparse
        · cases hparse
        · split at hparse
          · cases hparse
            apply isWhole_ofSeconds
          · cases hparse

/-- Without the blanks around it, a text that is written as digits with a unit behind them is parted
into the two where the first character stands that is no digit. -/
theorem parts_of_written {text unit : String} {front digits back : List Char}
    (htext : text.toList = front ++ (digits ++ unit.toList) ++ back)
    (hfront : ∀ c ∈ front, Text.isBlank c = true) (hback : ∀ c ∈ back, Text.isBlank c = true)
    (hdigits : ∀ c ∈ digits, Text.isDigit c = true)
    (hunit : ∀ c ∈ unit.toList, Text.isBlank c = false ∧ Text.isDigit c = false) :
  Text.trim text.toList = digits ++ unit.toList
    ∧ (digits ++ unit.toList).takeWhile Text.isDigit = digits
    ∧ (digits ++ unit.toList).dropWhile Text.isDigit = unit.toList
  := by
  have hcore : ∀ c ∈ digits ++ unit.toList, Text.isBlank c = false := by
    intro c hc
    obtain hc | hc := List.mem_append.mp hc
    · apply Text.isBlank_of_isDigit (hdigits c hc)
    · apply (hunit c hc).1
  constructor
  · rw [htext, Text.trim_append hfront hcore hback]
  rw [List.takeWhile_append_of_pos hdigits, List.dropWhile_append_of_pos hdigits]
  cases hparts : unit.toList with
  | nil => simp
  | cons c cs =>
    have hc := (hunit c (hparts ▸ List.mem_cons_self)).2
    rw [List.takeWhile_cons_of_neg (by simp [hc]), List.dropWhile_cons_of_neg (by simp [hc])]
    simp

/-- A number of milliseconds is read back, if it is none too large. -/
theorem parse_millis (n : Nat) :
  parse s!"{n}ms"
    = if n ≤ Text.maxWord then .ok (ofMillis n) else .error (.noNumber s!"{n}ms")
  := by
  have htext : s!"{n}ms".toList = Nat.toDigits 10 n ++ "ms".toList := by
    simp [toString, Nat.repr_eq_ofList_toDigits]
  have hwritten : s!"{n}ms".toList = [] ++ (Nat.toDigits 10 n ++ "ms".toList) ++ [] := by
    rw [htext, List.nil_append, List.append_nil]
  obtain ⟨htrim, htake, hdrop⟩ := parts_of_written hwritten (by simp) (by simp)
    (fun c hc => Text.isDigit_of_mem_toDigits hc) (by simp [Text.isBlank, Text.isDigit])
  rw [parse, htrim, htake, hdrop, Text.digits?_toDigits, ← htext, String.ofList_toList,
    String.ofList_toList]
  by_cases hn : n ≤ Text.maxWord
  · rw [if_pos hn, if_pos hn]
    rfl
  · rw [if_neg hn, if_neg hn]

/-- A whole number of milliseconds is read back just when it fits into 64 bits. -/
theorem toOption_parse_toMillis {d : Duration} (hd : d.IsWhole) :
  (parse s!"{d.toMillis}ms").toOption = if d.toMillis ≤ Text.maxWord then some d else none
  := by
  rw [parse_millis, hd]
  split_ifs
  · rfl
  · rfl

end Duration

namespace Settings

/-! ### Settings files -/

/-- What a fold of steps that may fail starts with and every step keeps holds at its end. -/
theorem foldlM_keeps {α β : Type} {P : β → Prop} {step : β → α → Option β} {items : List α}
    (hstep : ∀ b b' a, a ∈ items → step b a = some b' → P b → P b') {b b' : β} (hb : P b)
    (h : items.foldlM step b = some b') :
  P b'
  := by
  induction items generalizing b with
  | nil =>
    cases h
    exact hb
  | cons a items ih =>
    rw [List.foldlM_cons] at h
    obtain ⟨c, hc, hrest⟩ := Option.bind_eq_some_iff.mp h
    apply ih _ _ hrest
    · intro b b' a ha
      exact hstep b b' a (List.mem_cons_of_mem _ ha)
    · exact hstep b c a List.mem_cons_self hc hb

theorem isWhole_of_duration? {value : Toml} {d : Duration} (h : duration? value = some d) :
  d.IsWhole
  := by
  cases value with
  | integer n =>
    simp only [duration?] at h
    split at h
    · cases h
      apply Duration.isWhole_ofSeconds
    · contradiction
  | string text =>
    exact Duration.isWhole_of_parse h
  | _ => contradiction

/-- To set a field keeps the limit of the tests a whole number of milliseconds. -/
theorem isWhole_of_set {name : String} {set : Settings → Toml → Option Settings}
    (hfield : (name, set) ∈ fields) {s s' : Settings} {value : Toml}
    (hset : set s value = some s') (hs : s.timeout.IsWhole) :
  s'.timeout.IsWhole
  := by
  simp only [fields, List.mem_cons, List.not_mem_nil, or_false, Prod.mk.injEq] at hfield
  rcases hfield with h | h | h | h | h | h | h | h | h | h | h | h | h | h
  all_goals
    obtain ⟨rfl, rfl⟩ := h
    obtain ⟨x, hx, rfl⟩ := Option.map_eq_some_iff.mp hset
    first
    | exact isWhole_of_duration? hx
    | exact hs

theorem isWhole_of_ofToml? {value : Toml} {s : Settings} (h : ofToml? value = some s) :
  s.timeout.IsWhole
  := by
  have hdefault : ({} : Settings).timeout.IsWhole := Duration.isWhole_ofSeconds 60
  cases value with
  | table pairs =>
    rw [ofToml?] at h
    apply foldlM_keeps (P := fun s => s.timeout.IsWhole) _ hdefault h
    rintro s s' ⟨name, value⟩ - hstep hs
    obtain ⟨⟨name', set⟩, hfind, hset⟩ := Option.bind_eq_some_iff.mp hstep
    exact isWhole_of_set (List.mem_of_find?_eq_some hfind) hset hs
  | array items =>
    rw [ofToml?] at h
    apply foldlM_keeps (P := fun s => s.timeout.IsWhole) _ hdefault h
    rintro s s' ⟨⟨name, set⟩, value⟩ hitem hset hs
    exact isWhole_of_set (List.of_mem_zip hitem).1 hset hs
  | _ => contradiction

/-- The settings of a file limit the tests to a whole number of milliseconds. -/
theorem isWhole_of_parse? {text : String} {s : Settings} (h : parse? text = some s) :
  s.timeout.IsWhole
  := by
  have hdefault : ({} : Settings).timeout.IsWhole := Duration.isWhole_ofSeconds 60
  rw [parse?] at h
  split at h
  · cases h
    exact hdefault
  · obtain ⟨document, -, hdocument⟩ := Option.bind_eq_some_iff.mp h
    apply foldlM_keeps (P := fun s => s.timeout.IsWhole) _ hdefault hdocument
    rintro s s' ⟨name, value⟩ - hstep -
    by_cases hname : name = "run"
    · simp only [hname, ↓reduceIte] at hstep
      exact isWhole_of_ofToml? hstep
    · simp [hname] at hstep

end Settings

end MutationTesting
