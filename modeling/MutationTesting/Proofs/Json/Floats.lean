import MutationTesting.Proofs.Decimal.Rounding
import MutationTesting.Proofs.Json.Numerals

/-!
# Floats are read back

A finite float is printed as a numeral with the value of its shortest digits, which is nearer to the
float than to its neighbours. A numeral is read as a float unless its value is close to the end of
the range or beyond it, so that what is printed for a finite float is always read.
-/

namespace MutationTesting

namespace Text

/-! ### The values of digits -/

theorem digitsValue_cons (c : Char) (cs : List Char) :
  digitsValue (c :: cs) = 10 ^ cs.length * (c.toNat - '0'.toNat) + digitsValue cs
  := by
  change Nat.ofDigitChars 10 (c :: cs) 0 = _
  rw [Nat.ofDigitChars_cons, Nat.ofDigitChars_eq_ofDigitChars_zero, Nat.mul_zero, Nat.zero_add]
  rfl

theorem digitsValue_append (cs cs' : List Char) :
  digitsValue (cs ++ cs') = 10 ^ cs'.length * digitsValue cs + digitsValue cs'
  := by
  change Nat.ofDigitChars 10 (cs ++ cs') 0 = _
  rw [Nat.ofDigitChars_append, Nat.ofDigitChars_eq_ofDigitChars_zero]
  rfl

theorem digitsValue_replicate (k : Nat) :
  digitsValue (List.replicate k '0') = 0
  := Nat.ofDigitChars_replicate_zero

theorem digitsValue_toString (n : Nat) :
  digitsValue (toString n).toList = n
  := by
  rw [Json.toList_toString]
  exact Nat.ofDigitChars_ten_toDigits

theorem digitsValue_lt {cs : List Char} (h : ∀ c ∈ cs, Json.isDigit c = true) :
  digitsValue cs < 10 ^ cs.length
  := by
  induction cs with
  | nil => decide
  | cons c cs ih =>
    have hdigit : c.toNat - '0'.toNat < 10 := by
      have hc := h c List.mem_cons_self
      simp only [Json.isDigit, Bool.and_eq_true, decide_eq_true_eq, Char.le_def] at hc
      have hhigh : c.toNat ≤ 57 := hc.2
      change c.toNat - 48 < 10
      omega
    have hrest := ih fun c hc => h c (List.mem_cons_of_mem _ hc)
    rw [digitsValue_cons]
    calc _ < 10 ^ cs.length * (c.toNat - '0'.toNat) + 10 ^ cs.length := by omega
      _ = 10 ^ cs.length * (c.toNat - '0'.toNat + 1) := (Nat.mul_succ _ _).symm
      _ ≤ 10 ^ cs.length * 10 := Nat.mul_le_mul_left _ hdigit
      _ = 10 ^ (c :: cs).length := rfl

end Text

namespace Json

open Decimal

/-! ### Reading a number whose digits are known -/

/-- The digits that fit into 64 bits are those of a number that is not too large. -/
theorem absorb_le (n : Nat) (cs : List Char) :
  10 ^ (absorb n cs).2 * (absorb n cs).1 ≤ 10 ^ cs.length * n + Text.digitsValue cs
  := by
  induction cs generalizing n with
  | nil => simp [absorb, Text.digitsValue]
  | cons c cs ih =>
    unfold absorb
    dsimp only
    split
    · apply (ih _).trans_eq
      rw [Text.digitsValue_cons, List.length_cons, Nat.pow_succ]
      ring
    · exact Nat.le_add_right _ _

theorem absorb_le_maxWord {n : Nat} (h : n ≤ Text.maxWord) (cs : List Char) :
  (absorb n cs).1 ≤ Text.maxWord
  := by
  induction cs generalizing n with
  | nil => exact h
  | cons c cs ih =>
    unfold absorb
    dsimp only
    split
    · next hfits => apply ih hfits
    · exact h

/-- Digits that fit into 64 bits are all read. -/
theorem absorb_of_le {n : Nat} {cs : List Char}
    (h : 10 ^ cs.length * n + Text.digitsValue cs ≤ Text.maxWord) :
  absorb n cs = (10 ^ cs.length * n + Text.digitsValue cs, 0)
  := by
  induction cs generalizing n with
  | nil => simp [absorb, Text.digitsValue]
  | cons c cs ih =>
    have hvalue : 10 ^ cs.length * (10 * n + (c.toNat - '0'.toNat)) + Text.digitsValue cs
        = 10 ^ (c :: cs).length * n + Text.digitsValue (c :: cs) := by
      rw [Text.digitsValue_cons, List.length_cons, Nat.pow_succ]
      ring
    have hfits : 10 * n + (c.toNat - '0'.toNat) ≤ Text.maxWord := by
      apply le_trans _ ((Nat.le_add_right _ _).trans (hvalue ▸ h))
      apply Nat.le_mul_of_pos_left _ (by positivity)
    unfold absorb
    dsimp only
    rw [if_pos hfits, ih (hvalue ▸ h), hvalue]

/-- Up to here every numeral is read. -/
def readable : Nat := (2 ^ 53 - 8) * 2 ^ 971

/-- A float can be scaled down. -/
theorem scaleFloat?_of_neg (fuel : Nat) (f : Float) {e : Int} (he : e < 0) :
  (scaleFloat? fuel f e).isSome = true
  := by
  induction fuel generalizing f e with
  | zero => rfl
  | succ fuel ih =>
    unfold scaleFloat?
    split
    · split
      · rfl
      · rw [if_neg (by omega)]
        apply ih
        omega
    · dsimp only
      rw [if_neg (by omega)]
      rfl

theorem lt_of_le_readable {x : ℚ} (h : x ≤ readable) :
  widen (widen (widen x)) < 2 ^ (1024 : Int)
  := by
  have hsplit : (2 ^ (1024 : Int) : ℚ) = 2 ^ 53 * 2 ^ (971 : Int) := by
    rw [← zpow_natCast, ← zpow_add₀ two_ne_zero]
    rfl
  simp only [widen_eq]
  rw [hsplit]
  calc _ = x * (1 + 1 / 2 ^ 52) ^ 3 := by ring
    _ ≤ readable * (1 + 1 / 2 ^ 52) ^ 3 := by gcongr
    _ = (2 ^ 53 - 8 : Nat) * (1 + 1 / 2 ^ 52) ^ 3 * 2 ^ (971 : Int) := by
      rw [readable, Nat.cast_mul, Nat.cast_pow, ← zpow_natCast]
      exact mul_right_comm _ _ _
    _ < 2 ^ 53 * 2 ^ (971 : Int) := by
      gcongr
      norm_num

theorem InRange.of_le_readable {x : ℚ} (hlow : 1 ≤ x) (h : x ≤ readable) :
  InRange (widen (widen x))
  := by
  have hwiden : ∀ y : ℚ, 1 ≤ y → 1 ≤ widen y := by
    intro y hy
    rw [widen_eq]
    linarith
  constructor
  · exact (zpow_le_one_of_nonpos₀ one_le_two (by decide)).trans (hwiden _ (hwiden _ hlow))
  · apply lt_of_le_readable h

/-- The powers of ten that are readable. -/
theorem ten_pow_le_readable_iff {k : Nat} :
  10 ^ k ≤ readable ↔ k ≤ 308
  := by
  constructor
  · intro h
    by_contra hk
    have hle := (Nat.pow_le_pow_right (by decide) (Nat.lt_of_not_le hk)).trans h
    revert hle
    decide +kernel
  · intro hk
    apply (Nat.pow_le_pow_right (by decide) hk).trans
    decide +kernel

/-- A float and a power of ten have a finite product if it is readable. -/
theorem isInf_mul_powerOfTen {n k : Nat} (hn : n ≤ Text.maxWord) (hk : k ≤ 308)
    (hvalue : (n * 10 ^ k : ℚ) ≤ readable) :
  (n.toUInt64.toFloat * Float.ofScientific 1 false k).isInf = false
  := by
  -- No bound is zero: what bounds one bounds zero.
  have hbound : ((max n 1 * 10 ^ k : Nat) : ℚ) ≤ readable := by
    obtain hzero | hpos := Nat.le_total n 1
    · rw [Nat.max_eq_right hzero, Nat.one_mul]
      exact Nat.cast_le.mpr (ten_pow_le_readable_iff.mpr hk)
    · rw [Nat.max_eq_left hpos]
      exact_mod_cast hvalue
  have hlow : 1 ≤ max n 1 := Nat.le_max_right n 1
  have hword : IsWithin n.toUInt64.toFloat (widen (max n 1 : Nat)) := by
    apply isWithin_ofUInt64
    · have hfits : n % 2 ^ 64 = n := Nat.mod_eq_of_lt (Nat.lt_succ_of_le hn)
      rw [Nat.toUInt64_eq, UInt64.toNat_ofNat', hfits]
      exact_mod_cast Nat.le_max_left n 1
    · have hle : max n 1 ≤ Text.maxWord := max_le hn (by decide)
      apply inRange_natCast hlow
      apply (Nat.mul_le_mul_right _ hle).trans_lt
      decide +kernel
  have hrange : InRange (widen (max n 1 : Nat) * widen (10 ^ k : Nat)) := by
    rw [widen_mul, mul_comm, widen_mul, mul_comm, ← Nat.cast_mul]
    apply InRange.of_le_readable _ hbound
    exact_mod_cast Nat.mul_pos hlow (by positivity)
  have hfinite := (hword.mul (isWithin_powerOfTen hk) hrange).isFinite
  change (n.toUInt64.toFloat * Float.ofScientific 1 false k).toModel.unpack.isInf = false
  generalize (n.toUInt64.toFloat * Float.ofScientific 1 false k).toModel.unpack = u at hfinite
  cases u with
  | infinity => exact absurd hfinite Bool.false_ne_true
  | notANumber | zero | finite => rfl

/-- A number can be scaled up as long as it stays readable. -/
theorem scaleFloat?_of_le {n : Nat} (hn : n ≤ Text.maxWord) (fuel : Nat) {e : Int}
    (hvalue : (n * 10 ^ e : ℚ) ≤ readable) :
  (scaleFloat? fuel n.toUInt64.toFloat e).isSome = true
  := by
  cases fuel with
  | zero => rfl
  | succ fuel =>
    obtain he | he := Int.lt_or_le e 0
    · apply scaleFloat?_of_neg _ _ he
    · obtain ⟨k, rfl⟩ := Int.eq_ofNat_of_zero_le he
      rw [zpow_natCast] at hvalue
      rw [scaleFloat?, Int.natAbs_natCast]
      split
      · next hlarge =>
        -- Only zero is readable here.
        have hzero : n = 0 := by
          by_contra hpos
          have hle : n * 10 ^ k ≤ readable := by exact_mod_cast hvalue
          have hk := ten_pow_le_readable_iff.mp
            ((Nat.le_mul_of_pos_left _ (Nat.pos_of_ne_zero hpos)).trans hle)
          omega
        rw [hzero]
        rfl
      · next hk =>
        dsimp only
        rw [isInf_mul_powerOfTen hn (by omega) hvalue]
        rfl

/-! ### Reading numerals -/

namespace Numeral

variable (n : Numeral)

/-- The power of ten that the exponent stands for. -/
def power : Int :=
  n.exponent.elim 0 fun (negative, digits) =>
    if negative then -(Text.digitsValue digits : Int) else Text.digitsValue digits

/-- The number that a numeral stands for, whatever its sign. -/
def value : ℚ := Text.digitsValue (n.whole ++ n.fraction) * 10 ^ (n.power - n.fraction.length)

theorem power_le (hvalue : n.value ≤ readable) (hwhole : Text.digitsValue n.whole ≠ 0) :
  n.power ≤ 308
  := by
  by_contra hlarge
  obtain ⟨k, hk⟩ := Int.eq_ofNat_of_zero_le (show 0 ≤ n.power by omega)
  have hdigits : 10 ^ n.fraction.length ≤ Text.digitsValue (n.whole ++ n.fraction) := by
    rw [Text.digitsValue_append]
    apply (Nat.le_mul_of_pos_right _ (Nat.pos_of_ne_zero hwhole)).trans (Nat.le_add_right _ _)
  have hle : ((10 ^ k : Nat) : ℚ) ≤ readable := by
    calc ((10 ^ k : Nat) : ℚ)
        = (10 ^ n.fraction.length : Nat) * 10 ^ (n.power - n.fraction.length) := by
          rw [hk, zpow_sub₀ (by decide), zpow_natCast, zpow_natCast]
          push_cast
          field_simp
      _ ≤ n.value := by
        rw [value]
        gcongr
      _ ≤ readable := hvalue
  have hk := ten_pow_le_readable_iff.mp (Nat.cast_le.mp hle)
  omega

/-- What is read of the digits of a numeral is not larger than its value. -/
theorem absorb_mul_le :
  ((absorb (Text.digitsValue n.whole) n.fraction).1
      * 10 ^ (n.power - (n.fraction.length - (absorb (Text.digitsValue n.whole) n.fraction).2)) : ℚ)
    ≤ n.value
  := by
  have hle := absorb_le (Text.digitsValue n.whole) n.fraction
  rw [← Text.digitsValue_append] at hle
  generalize absorb (Text.digitsValue n.whole) n.fraction = read at *
  have hle : ((10 ^ read.2 * read.1 : Nat) : ℚ) ≤ Text.digitsValue (n.whole ++ n.fraction) :=
    Nat.cast_le.mpr hle
  calc (read.1 * 10 ^ (n.power - (n.fraction.length - read.2)) : ℚ)
      = (10 ^ read.2 * read.1 : Nat) * 10 ^ (n.power - n.fraction.length) := by
        rw [← sub_add, add_comm, zpow_add₀ (by decide), zpow_natCast]
        push_cast
        ring
    _ ≤ n.value := by
      rw [value]
      gcongr

/-- There is no exponent, or it raises or lowers the number. -/
theorem exponentText_cases :
  (n.exponentText = [] ∧ n.power = Text.digitsValue [])
    ∨ (∃ digits, n.exponentText = 'e' :: '+' :: digits ∧ n.power = Text.digitsValue digits)
    ∨ ∃ digits, n.exponentText = 'e' :: '-' :: digits ∧ n.power = -Text.digitsValue digits
  := by
  rw [exponentText, power]
  obtain _ | ⟨_ | _, digits⟩ := n.exponent
  · exact .inl ⟨rfl, rfl⟩
  · exact .inr (.inl ⟨digits, rfl, rfl⟩)
  · exact .inr (.inr ⟨digits, rfl, rfl⟩)

/-- The sign is parted off. -/
theorem snd_eq_of_text {negative : Bool} {cs : List Char}
    (h : (match n.text with
      | '-' :: cs => (true, cs)
      | cs => (false, cs)) = (negative, cs)) :
  cs = n.whole ++ (n.fractionText ++ n.exponentText)
  := by
  unfold text at h
  cases hnegative : n.negative with
  | true =>
    rw [hnegative, if_pos rfl, List.append_assoc, List.append_assoc, List.singleton_append] at h
    exact (congrArg Prod.snd h).symm
  | false =>
    rw [hnegative, if_neg Bool.false_ne_true, List.nil_append, List.append_assoc] at h
    split at h
    · next heq =>
      obtain ⟨c, digits, hwhole⟩ := List.exists_cons_of_ne_nil n.whole_ne_nil
      rw [hwhole, List.cons_append, List.cons.injEq] at heq
      have hdigit := n.isDigit_whole c (by simp [hwhole])
      rw [heq.1] at hdigit
      contradiction
    · exact (congrArg Prod.snd h).symm

/-- A numeral is read as a float, if its value is readable. -/
theorem float?_isSome (hwhole : Text.digitsValue n.whole ≤ Text.maxWord)
    (hvalue : n.value ≤ readable)
    (hpower : n.power ≤ 0 ∨ Text.digitsValue n.whole ≠ 0) :
  (float? (String.ofList n.text)).isSome = true
  := by
  have hends : Ends [] := by simp [Ends]
  have hw := n.wholePart?_append (n.head?_fractionText hends)
  have hf := n.fractionPart?_append (n.head?_exponentText hends)
  have he := n.exponentPart?_append hends
  rw [List.append_nil] at hw hf he
  have hskipped : absorb 0 n.whole = (Text.digitsValue n.whole, 0) := by
    simpa using absorb_of_le (n := 0) (by simpa using hwhole)
  have hfraction : n.fractionText.drop 1 = n.fraction := by
    rw [fractionText]
    split
    · next hnil => rw [hnil, List.drop_nil]
    · rfl
  have hpower : n.power ≤ 308 := by
    obtain hle | hne := hpower
    · omega
    · exact n.power_le hvalue hne
  have hscale : ∀ (e : Int) (sign : Float → Float),
      e = n.power - (n.fraction.length - (absorb (Text.digitsValue n.whole) n.fraction).2) →
      ((scaleFloat? 16 (absorb (Text.digitsValue n.whole) n.fraction).1.toUInt64.toFloat e).bind
        fun magnitude => pure (sign magnitude)).isSome = true := by
    rintro e sign rfl
    obtain ⟨magnitude, hmagnitude⟩ := Option.isSome_iff_exists.mp
      (scaleFloat?_of_le (absorb_le_maxWord hwhole n.fraction) 16
        (n.absorb_mul_le.trans hvalue))
    rw [hmagnitude]
    rfl
  unfold float?
  rw [String.toList_ofList]
  split
  next negative cs hsign =>
  have hcs := n.snd_eq_of_text hsign
  obtain ⟨htext, hnone⟩ | ⟨digits, htext, hup⟩ | ⟨digits, htext, hdown⟩ := n.exponentText_cases
  · rw [htext] at hcs hw hf he
    simp only [hcs, hw, hf, he, Option.bind_eq_bind, Option.bind_some, hskipped, hfraction,
      List.drop_nil]
    rw [if_neg (by decide), if_neg (by decide)]
    apply hscale
    rw [hnone, Nat.cast_zero]
    ring
  · have hfits : ¬ maxExponent < Text.digitsValue digits := by
      rw [maxExponent]
      omega
    rw [htext] at hcs hw hf he
    simp only [hcs, hw, hf, he, Option.bind_eq_bind, Option.bind_some, hskipped, hfraction,
      List.drop_succ_cons, List.drop_zero]
    rw [if_neg hfits, if_neg (by decide)]
    apply hscale
    rw [hup, Nat.cast_zero]
    ring
  · rw [htext] at hcs hw hf he
    simp only [hcs, hw, hf, he, Option.bind_eq_bind, Option.bind_some, hskipped, hfraction,
      List.drop_succ_cons, List.drop_zero]
    split
    · simp
    · rw [if_pos trivial]
      apply hscale
      rw [hdown, Nat.cast_zero]
      ring

end Numeral

end Json

/-! ### The digits of a float -/

namespace Decimal

open Json

/-- A number that an interval around a float contains is not zero, if the interval ends above
zero. -/
theorem Interval.ne_zero_of_contains {i : Interval} {n : Nat} {e : Int} (hlow : 0 < i.low)
    (h : i.contains n e = true) :
  n ≠ 0
  := by
  rintro rfl
  unfold contains at h
  have hpow : ∀ k, 0 < Nat.pow 10 k := fun k => Nat.pow_pos (by decide)
  have hbound : ∀ den, 0 < den → 0 < i.low * den := fun den => Nat.mul_pos hlow
  split_ifs at h <;> simp at h <;> grind

/-- The interval around a float that is not zero ends above zero. -/
theorem Binary.low_interval_pos {b : Binary} (h : b.mantissa ≠ 0) :
  0 < b.interval.low
  := by
  have hunit : 0 < (scale 1 (b.exponent - 2)).1 := by
    unfold scale
    split
    · rw [Nat.one_mul]
      apply Nat.pow_pos (by decide)
    · exact Nat.one_pos
  apply Nat.mul_pos _ hunit
  split <;> omega

/-- What is found on a grid is in the interval. -/
theorem Interval.contains_of_onGrid? {i : Interval} {n : Nat} {e : Int}
    (h : i.onGrid? e = some n) :
  i.contains n e = true
  := by
  unfold onGrid? at h
  dsimp only at h
  generalize (if 0 ≤ e then i.value / (i.den * Nat.pow 10 e.toNat)
    else i.value * Nat.pow 10 (-e).toNat / i.den) = below at h
  split at h
  · contradiction
  · next hcontains _ =>
    obtain rfl := Option.some.inj h
    exact hcontains
  · next hcontains =>
    obtain rfl := Option.some.inj h
    exact hcontains
  · next hcontains hcontains' =>
    split_ifs at h <;> obtain rfl := Option.some.inj h <;> assumption

/-- Taking the zeros at their end away leaves some digits of a number that is not zero. -/
theorem Scaled.normalize_digits_ne_zero {s : Scaled} (h : s.digits ≠ 0) (fuel : Nat) :
  (s.normalize fuel).digits ≠ 0
  := by
  induction fuel generalizing s with
  | zero => exact h
  | succ fuel ih =>
    unfold normalize
    split
    · next hzero =>
      apply ih
      rw [Bool.and_eq_true, decide_eq_true_eq, decide_eq_true_eq] at hzero
      dsimp only
      omega
    · exact h

/-- The digits of a float are no zeros, unless there is one alone. -/
theorem Binary.shortest_digits {b : Binary} (h : b.mantissa ≠ 0) :
  b.shortest.digits ≠ 0 ∨ b.shortest.exponent ≤ 0
  := by
  unfold shortest
  dsimp only
  cases hfound : (List.range 17).findSome? _ with
  | none =>
    right
    decide
  | some s =>
    left
    obtain ⟨n, -, hgrid⟩ := List.exists_of_findSome?_eq_some hfound
    obtain ⟨digits, hdigits, rfl⟩ := Option.map_eq_some_iff.mp hgrid
    apply Scaled.normalize_digits_ne_zero
    apply Interval.ne_zero_of_contains (low_interval_pos h)
      (Interval.contains_of_onGrid? hdigits)

/-- The number that digits with an exponent stand for. -/
def Scaled.value (s : Scaled) : ℚ := s.digits * 10 ^ s.exponent

/-- Taking zeros at the end away leaves a number as it is. -/
theorem Scaled.value_normalize (s : Scaled) (fuel : Nat) :
  (s.normalize fuel).value = s.value
  := by
  induction fuel generalizing s with
  | zero => rfl
  | succ fuel ih =>
    unfold normalize
    split
    · next hzero =>
      simp only [Bool.and_eq_true, decide_eq_true_eq] at hzero
      have hdigits : (s.digits : ℚ) = (s.digits / 10 : Nat) * 10 := by
        exact_mod_cast (Nat.div_mul_cancel (Nat.dvd_of_mod_eq_zero hzero.2)).symm
      rw [ih, value, value, hdigits, zpow_add₀ (by decide), zpow_one]
      ring
    · rfl

/-- A number in an interval is not beyond its end. -/
theorem Interval.le_of_contains {i : Interval} {n : Nat} {e : Int} (hden : 0 < i.den)
    (h : i.contains n e = true) :
  (n * 10 ^ e : ℚ) ≤ i.high / i.den
  := by
  have hhigh : (if 0 ≤ e then (n * Nat.pow 10 e.toNat, 1) else (n, Nat.pow 10 (-e).toNat)).1 * i.den
      ≤ i.high * (if 0 ≤ e then (n * Nat.pow 10 e.toNat, 1) else (n, Nat.pow 10 (-e).toNat)).2 := by
    unfold contains at h
    dsimp only at h
    split at h
    · simp only [Bool.and_eq_true, decide_eq_true_eq] at h
      exact h.2
    · simp only [Bool.and_eq_true, decide_eq_true_eq] at h
      exact h.2.le
  rw [le_div_iff₀ (by exact_mod_cast hden)]
  split at hhigh
  · next he =>
    obtain ⟨k, rfl⟩ := Int.eq_ofNat_of_zero_le he
    have hhigh : ((n * 10 ^ k * i.den : Nat) : ℚ) ≤ (i.high * 1 : Nat) := Nat.cast_le.mpr hhigh
    push_cast at hhigh
    rwa [zpow_natCast, ← mul_one (i.high : ℚ)]
  · next he =>
    obtain ⟨k, rfl⟩ : ∃ k : Nat, e = -k := ⟨(-e).toNat, by omega⟩
    have hhigh : ((n * i.den : Nat) : ℚ) ≤ (i.high * 10 ^ k : Nat) := by
      apply Nat.cast_le.mpr
      simpa using hhigh
    push_cast at hhigh
    rwa [zpow_neg, zpow_natCast, mul_right_comm, ← div_eq_mul_inv, div_le_iff₀ (by positivity)]

theorem Binary.high_interval (b : Binary) :
  0 < b.interval.den
    ∧ (b.interval.high / b.interval.den : ℚ) = (4 * b.mantissa + 2) * 2 ^ (b.exponent - 2)
  := by
  unfold interval scale
  dsimp only
  split
  · next he =>
    obtain ⟨k, hk⟩ := Int.eq_ofNat_of_zero_le he
    rw [hk]
    constructor
    · exact Nat.one_pos
    · rw [zpow_natCast]
      simp
  · next he =>
    obtain ⟨k, hk⟩ : ∃ k : Nat, b.exponent - 2 = -k := ⟨(-(b.exponent - 2)).toNat, by omega⟩
    rw [hk]
    constructor
    · apply Nat.pow_pos two_pos
    · rw [zpow_neg, zpow_natCast, ← div_eq_mul_inv]
      simp

/-- The shortest digits of a float are in its interval. -/
theorem Binary.value_shortest_le (b : Binary) :
  b.shortest.value ≤ (4 * b.mantissa + 2) * 2 ^ (b.exponent - 2)
  := by
  unfold shortest
  dsimp only
  rw [Scaled.value_normalize]
  cases hfound : (List.range 17).findSome? _ with
  | none =>
    rw [Option.getD_none, Scaled.value, Nat.cast_zero, zero_mul]
    positivity
  | some s =>
    obtain ⟨n, -, hgrid⟩ := List.exists_of_findSome?_eq_some hfound
    obtain ⟨digits, hdigits, rfl⟩ := Option.map_eq_some_iff.mp hgrid
    obtain ⟨hden, hhigh⟩ := b.high_interval
    rw [← hhigh]
    exact Interval.le_of_contains hden (Interval.contains_of_onGrid? hdigits)

end Decimal

/-! ### The layout of digits -/

namespace Json

/-- A numeral stands for a number, whatever its sign. None of its digits before the point are skipped
where it is read, and it has no exponent above zero if they are zeros. -/
structure Numeral.Writes (n : Numeral) (x : ℚ) : Prop where
  value_eq : n.value = x
  whole_le : Text.digitsValue n.whole ≤ Text.maxWord
  power_le : n.power ≤ 0 ∨ Text.digitsValue n.whole ≠ 0

theorem digitsValue_le_maxWord {cs : List Char} (h : ∀ c ∈ cs, isDigit c = true)
    (hlength : cs.length ≤ 16) :
  Text.digitsValue cs ≤ Text.maxWord
  := by
  have hlt := (Text.digitsValue_lt h).trans_le (Nat.pow_le_pow_right (by decide) hlength)
  rw [Text.maxWord]
  omega

namespace Digits

variable {cs : List Char} {x : Int} {k : Nat} (h : Digits cs)

include h

theorem exists_writes_whole (hx : x = k) (hk : cs = ['0'] → k = 0) (hlength : cs.length + k ≤ 16) :
  ∃ n : Numeral, n.negative = false ∧ n.text = cs ++ List.replicate k '0' ++ ['.', '0']
    ∧ n.Writes (Text.digitsValue cs * 10 ^ x)
  := by
  obtain ⟨n, hnegative, hwhole, hfraction, hexponent, htext⟩ := h.exists_numeral_whole hk
  have hpower : n.power = 0 := by rw [Numeral.power, hexponent, Option.elim_none]
  refine ⟨n, hnegative, htext, ?_, ?_, ?_⟩
  · have hdigits : Text.digitsValue (cs ++ List.replicate k '0' ++ ['0'])
        = 10 * (10 ^ k * Text.digitsValue cs) := by
      rw [Text.digitsValue_append, Text.digitsValue_append, Text.digitsValue_replicate,
        List.length_replicate]
      rfl
    rw [Numeral.value, hwhole, hfraction, hpower, hdigits, hx, zpow_natCast, List.length_singleton,
      zero_sub, Nat.cast_one, zpow_neg_one]
    push_cast
    field_simp
  · apply digitsValue_le_maxWord n.isDigit_whole
    rw [hwhole, List.length_append, List.length_replicate]
    exact hlength
  · exact .inl hpower.le

theorem exists_writes_parted (hx : (k : Int) = cs.length + x) (hpos : 0 < k) (hneg : x < 0)
    (hlength : k ≤ 16) :
  ∃ n : Numeral, n.negative = false ∧ n.text = cs.take k ++ '.' :: cs.drop k
    ∧ n.Writes (Text.digitsValue cs * 10 ^ x)
  := by
  obtain ⟨n, hnegative, hwhole, hfraction, hexponent, htext⟩ :=
    h.exists_numeral_parted hpos (by omega)
  have hpower : n.power = 0 := by rw [Numeral.power, hexponent, Option.elim_none]
  refine ⟨n, hnegative, htext, ?_, ?_, ?_⟩
  · rw [Numeral.value, hwhole, hfraction, hpower, List.take_append_drop, List.length_drop]
    congr 2
    omega
  · apply digitsValue_le_maxWord n.isDigit_whole
    rw [hwhole, List.length_take]
    omega
  · exact .inl hpower.le

theorem exists_writes_small (hx : -(k : Int) = cs.length + x) :
  ∃ n : Numeral, n.negative = false ∧ n.text = ['0', '.'] ++ List.replicate k '0' ++ cs
    ∧ n.Writes (Text.digitsValue cs * 10 ^ x)
  := by
  obtain ⟨n, hnegative, hwhole, hfraction, hexponent, htext⟩ := h.exists_numeral_small k
  have hpower : n.power = 0 := by rw [Numeral.power, hexponent, Option.elim_none]
  refine ⟨n, hnegative, htext, ?_, ?_, ?_⟩
  · have hdigits : Text.digitsValue (['0'] ++ (List.replicate k '0' ++ cs))
        = Text.digitsValue cs := by
      rw [Text.digitsValue_append, Text.digitsValue_append, Text.digitsValue_replicate]
      simp [Text.digitsValue]
    rw [Numeral.value, hwhole, hfraction, hpower, hdigits, List.length_append,
      List.length_replicate]
    congr 2
    omega
  · rw [hwhole]
    decide
  · exact .inl hpower.le

theorem exists_writes_scientific {e : Int} (hx : e = cs.length + x - 1)
    (he : e ≤ 0 ∨ Text.digitsValue (cs.take 1) ≠ 0) :
  ∃ n : Numeral, n.negative = false
    ∧ n.text = (if cs.length = 1 then cs else cs.take 1 ++ '.' :: cs.drop 1)
      ++ ['e', if 0 ≤ e then '+' else '-'] ++ (toString e.natAbs).toList
    ∧ n.Writes (Text.digitsValue cs * 10 ^ x)
  := by
  obtain ⟨n, hnegative, hwhole, hfraction, hexponent, htext⟩ := h.exists_numeral_scientific e
  have hpower : n.power = e := by
    rw [Numeral.power, hexponent, Option.elim_some]
    dsimp only
    rw [Text.digitsValue_toString]
    by_cases hpos : 0 ≤ e
    · simp [hpos]
    · simp only [hpos, decide_false, Bool.not_false, if_true]
      omega
  have hlength := List.length_pos_of_ne_nil h.ne_nil
  refine ⟨n, hnegative, htext, ?_, ?_, ?_⟩
  · rw [Numeral.value, hwhole, hfraction, hpower, List.take_append_drop, List.length_drop]
    congr 2
    omega
  · apply digitsValue_le_maxWord n.isDigit_whole
    rw [hwhole, List.length_take]
    omega
  · rwa [hpower, hwhole]

/-- Only the digits of zero start with a zero. -/
theorem digitsValue_take_one_ne_zero (hne : Text.digitsValue cs ≠ 0) :
  Text.digitsValue (cs.take 1) ≠ 0
  := by
  obtain ⟨c, rest, rfl⟩ := List.exists_cons_of_ne_nil h.ne_nil
  intro hzero
  have hc : c = '0' := by
    have hdigit := h.isDigit c List.mem_cons_self
    simp only [Json.isDigit, Bool.and_eq_true, decide_eq_true_eq, Char.le_def] at hdigit
    have hlow : 48 ≤ c.toNat := hdigit.1
    have hvalue : c.toNat - 48 = 0 := by
      rw [← hzero, List.take_succ_cons, Text.digitsValue_cons]
      exact (Nat.one_mul _).symm
    apply Char.toNat_inj.mp
    change c.toNat = 48
    omega
  rw [h.leading (by rw [hc]; rfl)] at hne
  exact hne rfl

end Digits

end Json

namespace Decimal

open Json
open Float.Model (Format)
open Float.Model.UnpackedFloat (unpack unpackExponent)

/-- Digits with an exponent are laid out as a numeral. -/
theorem exists_numeral_of_layout {s : Scaled} (h : s.digits ≠ 0 ∨ s.exponent ≤ 0) :
  ∃ n : Numeral, n.negative = false ∧ n.text = layout s ∧ n.Writes s.value
  := by
  have hdigits := digits_toString s.digits
  have hvalue := Text.digitsValue_toString s.digits
  have hpos := List.length_pos_of_ne_nil hdigits.ne_nil
  rw [Scaled.value, ← hvalue]
  unfold layout
  dsimp only
  split
  · next hpoint =>
    rw [Bool.and_eq_true, decide_eq_true_eq, decide_eq_true_eq] at hpoint
    split
    · apply hdigits.exists_writes_whole
      · omega
      · intro hzero
        rw [hzero] at hvalue
        have hzero : s.digits = 0 := hvalue.symm
        omega
      · omega
    · split
      · apply hdigits.exists_writes_parted <;> omega
      · apply hdigits.exists_writes_small
        omega
  · next hpoint =>
    rw [Bool.and_eq_true, decide_eq_true_eq, decide_eq_true_eq] at hpoint
    apply hdigits.exists_writes_scientific rfl
    by_cases hzero : s.digits = 0
    · left
      have hlength : (toString s.digits).toList.length = 1 := by
        rw [hzero]
        decide
      omega
    · right
      apply hdigits.digitsValue_take_one_ne_zero
      rwa [hvalue]

/-! ### Printing floats -/

/-- The parts of a float have 53 bits and an exponent that is not too large. -/
theorem Binary.bounds_of_ofFloat? {f : Float} {b : Binary} (h : ofFloat? f = some b) :
  b.mantissa < 2 ^ 53 ∧ b.exponent ≤ 971
    ∧ (b.narrowBelow = true → b.mantissa = hiddenBit)
  := by
  unfold ofFloat? at h
  dsimp only at h
  have hfraction : f.toBits.toNat % hiddenBit < 2 ^ 52 := Nat.mod_lt _ (by decide)
  split at h
  · cases h
  · split at h
    · cases h
      refine ⟨hfraction.trans (by decide), by dsimp only; omega, ?_⟩
      simp
    · next hones _ =>
      cases h
      refine ⟨?_, ?_, ?_⟩
      · dsimp only
        rw [hiddenBit] at *
        omega
      · dsimp only
        omega
      · simp +contextual

/-- A finite float has parts. -/
theorem Binary.isSome_ofFloat? {f : Float} (h : f.isFinite = true) :
  (ofFloat? f).isSome = true
  := by
  have hfield : f.toBits.toNat / hiddenBit % 2048 ≠ 2047 := by
    intro hones
    change (unpack Format.binary64 f.toBits.toBitVec).isFinite = true at h
    have hexponent : @unpackExponent Format.binary64 f.toBits.toBitVec = -1#11 := by
      apply BitVec.eq_of_toNat_eq
      change (f.toBits.toBitVec.extractLsb 62 52).toNat = _
      rw [BitVec.extractLsb_toNat, Nat.shiftRight_eq_div_pow]
      exact hones
    unfold unpack at h
    dsimp only at h
    rw [if_pos hexponent] at h
    split at h <;> cases h
  unfold ofFloat?
  dsimp only
  rw [if_neg hfield]
  split <;> rfl

/-- The digits of a float; zero has one. -/
def Binary.digits (b : Binary) : Scaled := if b.mantissa = 0 then ⟨0, 0⟩ else b.shortest

/-- What a float is printed as. -/
def Binary.text (b : Binary) : List Char :=
  if b.negative then '-' :: layout b.digits else layout b.digits

theorem shortest?_eq (f : Float) :
  shortest? f = (Binary.ofFloat? f).map fun b => String.ofList b.text
  := by
  rw [shortest?]
  congr with b
  rw [Binary.text, Binary.digits]
  split <;> rfl

theorem Binary.exists_numeral (b : Binary) :
  ∃ n : Numeral, n.text = b.text ∧ n.Writes b.digits.value
  := by
  have hdigits : b.digits.digits ≠ 0 ∨ b.digits.exponent ≤ 0 := by
    unfold digits
    split
    · exact .inr le_rfl
    · next hnonzero => exact b.shortest_digits hnonzero
  obtain ⟨n, hnegative, htext, hn⟩ := exists_numeral_of_layout hdigits
  rw [text, ← htext]
  split
  · use { n with negative := true }
    constructor
    · simp [Numeral.text, Numeral.fractionText, Numeral.exponentText, hnegative]
    · exact ⟨hn.value_eq, hn.whole_le, hn.power_le⟩
  · exact ⟨n, rfl, hn⟩

/-- A finite float is printed as a numeral. -/
theorem exists_numeral_of_shortest? {f : Float} {text : String} (h : shortest? f = some text) :
  ∃ n : Numeral, n.text = text.toList
  := by
  rw [shortest?_eq] at h
  obtain ⟨b, -, rfl⟩ := Option.map_eq_some_iff.mp h
  obtain ⟨n, htext, -⟩ := b.exists_numeral
  rw [String.toList_ofList]
  exact ⟨n, htext⟩

theorem Binary.value_digits_le (b : Binary) :
  b.digits.value ≤ (4 * b.mantissa + 2) * 2 ^ (b.exponent - 2)
  := by
  unfold digits
  split
  · rw [Scaled.value, Nat.cast_zero, zero_mul]
    positivity
  · apply b.value_shortest_le

/-- All floats but the largest ones are printed as numerals that are readable. -/
theorem Binary.value_digits_le_readable {b : Binary} (hmantissa : b.mantissa < 2 ^ 53)
    (hexponent : b.exponent ≤ 971) (h : b.exponent ≠ 971 ∨ b.mantissa + 9 ≤ 2 ^ 53) :
  b.digits.value ≤ readable
  := by
  apply b.value_digits_le.trans
  have hreadable : (readable : ℚ) = (4 * (2 ^ 53 - 8 : Nat)) * 2 ^ (969 : Int) := by
    rw [readable, Nat.cast_mul, Nat.cast_pow, ← zpow_natCast]
    rw [show ((971 : Nat) : Int) = 2 + 969 by rfl, zpow_add₀ (by decide)]
    generalize (2 ^ (969 : Int) : ℚ) = unit
    push_cast
    ring
  rw [hreadable]
  obtain hlower | hfits := h
  · calc (4 * b.mantissa + 2) * 2 ^ (b.exponent - 2)
        ≤ (4 * 2 ^ 53 : Nat) * (2 : ℚ) ^ (968 : Int) := by
          gcongr
          · exact_mod_cast (by omega : 4 * b.mantissa + 2 ≤ 4 * 2 ^ 53)
          · exact one_le_two
          · omega
      _ = (2 * 2 ^ 53 : Nat) * 2 ^ (969 : Int) := by
        rw [show (969 : Int) = 1 + 968 by rfl, zpow_add₀ (by decide)]
        generalize (2 ^ (968 : Int) : ℚ) = unit
        push_cast
        ring
      _ ≤ _ := by
        gcongr
        exact_mod_cast (by decide : 2 * 2 ^ 53 ≤ 4 * (2 ^ 53 - 8))
  · gcongr
    · exact_mod_cast (by omega : 4 * b.mantissa + 2 ≤ 4 * (2 ^ 53 - 8))
    · exact one_le_two
    · omega

/-- The largest floats are read back, although numerals that are not much larger are not. -/
theorem isSome_float?_largest :
  ∀ i < 8, ∀ negative : Bool,
    (Json.float? (String.ofList (Binary.text ⟨negative, 2 ^ 53 - 1 - i, 971, false⟩))).isSome = true
  := by
  -- The number of digits of a number is not counted in its text, which is long.
  simp only [Binary.text, Binary.digits, Binary.shortest, leadingExponent, length_toString]
  decide +kernel

/-- What is printed for a float is read as a float. -/
theorem Binary.isSome_float?_text {f : Float} {b : Binary} (h : ofFloat? f = some b) :
  (Json.float? (String.ofList b.text)).isSome = true
  := by
  obtain ⟨hmantissa, hexponent, hnarrow⟩ := bounds_of_ofFloat? h
  by_cases hlarge : b.exponent = 971 ∧ 2 ^ 53 < b.mantissa + 9
  · have hbelow : b.narrowBelow = false := by
      by_contra hbelow
      have hhidden := hnarrow (Bool.eq_true_of_not_eq_false hbelow)
      rw [hhidden] at hlarge
      exact absurd hlarge.2 (by decide)
    obtain ⟨negative, mantissa, exponent, narrowBelow⟩ := b
    dsimp only at *
    obtain ⟨i, hi, rfl⟩ : ∃ i < 8, mantissa = 2 ^ 53 - 1 - i :=
      ⟨2 ^ 53 - 1 - mantissa, by omega, by omega⟩
    rw [hlarge.1, hbelow]
    apply isSome_float?_largest i hi
  · obtain ⟨n, htext, hn⟩ := b.exists_numeral
    rw [← htext]
    apply n.float?_isSome hn.whole_le _ hn.power_le
    rw [hn.value_eq]
    apply value_digits_le_readable hmantissa hexponent
    omega

end Decimal

namespace Json

open Decimal

/-- A finite float is read back as a float. -/
theorem real?_ofFloat {f : Float} (h : f.isFinite = true) :
  (real? (ofFloat f)).isSome = true
  := by
  obtain ⟨b, hb⟩ := Option.isSome_iff_exists.mp (Binary.isSome_ofFloat? h)
  rw [ofFloat, shortest?_eq, hb]
  exact Binary.isSome_float?_text hb

end Json

end MutationTesting
