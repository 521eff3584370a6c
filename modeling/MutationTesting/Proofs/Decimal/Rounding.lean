import Mathlib.Algebra.Order.Field.Power
import Mathlib.Data.Nat.Cast.Order.Field
import Mathlib.Data.Rat.Cast.Order
import Mathlib.Tactic.FieldSimp
import Mathlib.Tactic.Linarith
import Mathlib.Tactic.NormNum
import Mathlib.Tactic.Positivity
import Mathlib.Tactic.Ring

/-!
# Floats that stay finite

An operation on floats computes an exact number and rounds it to 53 bits. So what it gives is not
farther from zero than the exact number by more than one part in `2 ^ 52`, unless that number is
smaller than all normal floats, and it is finite unless the exact number is too large. `IsWithin`
bounds the absolute value of a finite float, and there is one lemma for each operation.
-/

namespace MutationTesting.Decimal

open Float.Model (Format UnpackedFloat totalExponent)
open Float.Model.UnpackedFloat

/-! ### Bounds -/

/-- The absolute value of a finite float. -/
def magnitude : UnpackedFloat → ℚ
  | .finite _ mantissa exponent _ => mantissa * 2 ^ exponent
  | _ => 0

/-- A number is finite, and its absolute value is at most a bound. -/
structure Within (u : UnpackedFloat) (bound : ℚ) : Prop where
  isFinite : u.isFinite = true
  magnitude_le : magnitude u ≤ bound

/-- A float is finite, and its absolute value is at most a bound. -/
def IsWithin (f : Float) (bound : ℚ) : Prop := Within f.toModel.unpack bound

/-- What is stored of a number is finite, and its absolute value is at most a bound. -/
def IsStoredWithin (u : UnpackedFloat) (bound : ℚ) : Prop :=
  Within (unpack Format.binary64 (pack Format.binary64 u)) bound

/-- A bound for what numbers up to `x` are rounded to. -/
def widen (x : ℚ) : ℚ := x * (1 + 2 ^ (-52 : Int))

/-- Numbers up to a bound are rounded to finite floats, and the bound is not smaller than all
normal floats. -/
structure InRange (x : ℚ) : Prop where
  low : 2 ^ (-1022 : Int) ≤ x
  high : widen x < 2 ^ (1024 : Int)

variable {u : UnpackedFloat} {s : Sign} {m : Nat} {e : Int} {accuracy : Accuracy} {x y : ℚ}

theorem widen_eq (x : ℚ) :
  widen x = x * (1 + 1 / 2 ^ 52)
  := by
  rw [widen, zpow_neg, one_div]
  rfl

theorem widen_mul (x y : ℚ) :
  widen x * y = widen (x * y)
  := mul_right_comm x _ y

theorem Within.mono (h : Within u x) (hle : x ≤ y) :
  Within u y
  := ⟨h.isFinite, h.magnitude_le.trans hle⟩

theorem InRange.pos (h : InRange x) :
  0 < x
  := lt_of_lt_of_le (by positivity) h.low

theorem InRange.le_widen (h : InRange x) :
  x ≤ widen x
  := by
  rw [widen]
  have := mul_pos h.pos (zpow_pos (two_pos (α := ℚ)) (-52))
  linarith

theorem InRange.lt (h : InRange x) :
  x < 2 ^ (1024 : Int)
  := h.le_widen.trans_lt h.high

theorem widen_le (hx : 0 ≤ x) (hle : 2 * x ≤ y) :
  widen x ≤ y
  := by
  rw [widen_eq]
  linarith

/-- Numbers that are neither small nor large are in the range. -/
theorem inRange_of_le (hlow : 1 ≤ x) (hhigh : x ≤ 2 ^ 100) :
  InRange x
  := by
  constructor
  · apply (zpow_le_one_of_nonpos₀ one_le_two (by decide)).trans hlow
  · have hwiden : widen x ≤ 2 * 2 ^ 100 := widen_le (zero_le_one.trans hlow) (by linarith)
    apply hwiden.trans_lt
    rw [← pow_succ', ← zpow_natCast]
    exact zpow_lt_zpow_right₀ one_lt_two (by decide)

/-! ### Leading bits -/

theorem two_zpow_log2_le (hm : m ≠ 0) (e : Int) :
  (2 ^ ((m.log2 : Int) + e) : ℚ) ≤ m * 2 ^ e
  := by
  have hbit : (2 ^ (m.log2 : Int) : ℚ) ≤ m := by
    rw [zpow_natCast]
    exact_mod_cast Nat.log2_self_le hm
  rw [zpow_add₀ two_ne_zero]
  gcongr

theorem lt_two_zpow_log2 (m : Nat) (e : Int) :
  (m * 2 ^ e : ℚ) < 2 ^ ((m.log2 : Int) + 1 + e)
  := by
  have hbit : (m : ℚ) < 2 ^ ((m.log2 : Int) + 1) := by
    exact_mod_cast Nat.lt_log2_self (n := m)
  rw [zpow_add₀ two_ne_zero]
  gcongr

/-- The leading bit of a number below a power of two. -/
theorem log2_add_lt {n : Int} (hm : m ≠ 0) (h : (m * 2 ^ e : ℚ) < 2 ^ n) :
  (m.log2 : Int) + e < n
  := (zpow_lt_zpow_iff_right₀ one_lt_two).mp ((two_zpow_log2_le hm e).trans_lt h)

/-- Bits that are shifted out make a number no larger. -/
theorem shifted_le (m k : Nat) (e : Int) :
  ((m / 2 ^ k : Nat) * 2 ^ (e + k) : ℚ) ≤ m * 2 ^ e
  := by
  have hdiv : ((m / 2 ^ k * 2 ^ k : Nat) : ℚ) ≤ m := by
    exact_mod_cast Nat.div_mul_le_self m (2 ^ k)
  calc ((m / 2 ^ k : Nat) * 2 ^ (e + k) : ℚ) = (m / 2 ^ k * 2 ^ k : Nat) * 2 ^ e := by
        rw [zpow_add₀ two_ne_zero, zpow_natCast]
        push_cast
        ring
    _ ≤ m * 2 ^ e := by gcongr

/-! ### Numbers as they are stored -/

theorem toNat_append_one (fraction : BitVec 52) :
  (1#1 ++ fraction).toNat = 2 ^ 52 + fraction.toNat
  := by
  rw [BitVec.toNat_append, ← Nat.shiftLeft_add_eq_or_of_lt fraction.isLt]
  simp [Nat.shiftLeft_eq]

/-- The mantissa and the exponent of a float. -/
theorem bounds_of_unpack {b : BitVec 64} {hm : 0 < m}
    (h : unpack Format.binary64 b = .finite s m e hm) :
  m < 2 ^ 53 ∧ e ≤ 971 ∧ (2 ^ 52 ≤ m ∨ e = -1074)
  := by
  unfold unpack at h
  dsimp only at h
  have hfraction : (@unpackMantissa Format.binary64 b).toNat < 2 ^ 52 := BitVec.isLt _
  have hexponent : (@unpackExponent Format.binary64 b).toNat < 2 ^ 11 := BitVec.isLt _
  by_cases hones : @unpackExponent Format.binary64 b = -1#11
  · rw [if_pos hones] at h
    by_cases hnone : @unpackMantissa Format.binary64 b = 0#52
    · rw [if_pos hnone] at h
      cases h
    · rw [if_neg hnone] at h
      cases h
  · rw [if_neg hones] at h
    by_cases hzero : @unpackExponent Format.binary64 b = 0#11
    · rw [if_pos hzero] at h
      by_cases hnone : @unpackMantissa Format.binary64 b = 0#52
      · rw [dif_pos hnone] at h
        cases h
      · rw [dif_neg hnone] at h
        cases h
        rw [hzero]
        exact ⟨by omega, by decide, .inr rfl⟩
    · rw [if_neg hzero] at h
      cases h
      have hnotOnes : (@unpackExponent Format.binary64 b).toNat ≠ 2047 :=
        fun h => hones (BitVec.eq_of_toNat_eq h)
      change _ ∧ ((@unpackExponent Format.binary64 b).toNat : Int) - 1075 ≤ 971 ∧ _
      rw [toNat_append_one]
      exact ⟨by omega, by omega, .inl (by omega)⟩

/-- A float is finite if its exponent is not the one of infinity. -/
theorem within_unpack {b : BitVec 64} (h : @unpackExponent Format.binary64 b ≠ -1#11) :
  Within (unpack Format.binary64 b)
    (if @unpackExponent Format.binary64 b = 0#11 then
      (@unpackMantissa Format.binary64 b).toNat * 2 ^ (-1074 : Int)
    else
      (2 ^ 52 + (@unpackMantissa Format.binary64 b).toNat : Nat)
        * 2 ^ (((@unpackExponent Format.binary64 b).toNat : Int) - 1075))
  := by
  unfold unpack
  dsimp only
  rw [if_neg h]
  by_cases hzero : @unpackExponent Format.binary64 b = 0#11
  · rw [if_pos hzero, if_pos hzero]
    by_cases hnone : @unpackMantissa Format.binary64 b = 0#52
    · rw [dif_pos hnone]
      constructor
      · rfl
      · change (0 : ℚ) ≤ _
        positivity
    · rw [dif_neg hnone, hzero]
      exact ⟨rfl, le_rfl⟩
  · rw [if_neg hzero, if_neg hzero]
    constructor
    · rfl
    · change ((1#1 ++ @unpackMantissa Format.binary64 b).toNat : ℚ) * 2 ^ _ ≤ _
      rw [toNat_append_one]
      rfl

theorem within_packComponents (s : Sign) {exponent : BitVec 11} (fraction : BitVec 52)
    (hexponent : exponent ≠ -1#11) :
  Within (unpack Format.binary64 (packComponents Format.binary64 s exponent fraction))
    (if exponent = 0#11 then fraction.toNat * 2 ^ (-1074 : Int)
      else (2 ^ 52 + fraction.toNat : Nat) * 2 ^ ((exponent.toNat : Int) - 1075))
  := by
  have hwithin := @within_unpack (packComponents Format.binary64 s exponent fraction)
  rw [unpackMantissa_packComponents, unpackExponent_packComponents] at hwithin
  apply hwithin hexponent

theorem isStoredWithin_zero (s : Sign) (hx : 0 ≤ x) :
  IsStoredWithin (.zero s) x
  := by
  cases s <;> exact ⟨rfl, hx⟩

/-- A number that need not be rounded is stored, as a subnormal number if its leading bit is
missing. -/
theorem isStoredWithin_finite (s : Sign) (hm : 0 < m) (hlt : m < 2 ^ 53) (he : e ≤ 971) :
  IsStoredWithin (.finite s m e hm) (max (m * 2 ^ e) (2 ^ (-1022 : Int)))
  := by
  have hsubnormal : ∀ fraction : BitVec 52,
      (fraction.toNat * 2 ^ (-1074 : Int) : ℚ) ≤ 2 ^ (-1022 : Int) := by
    intro fraction
    have hfraction : (fraction.toNat : ℚ) ≤ 2 ^ (52 : Int) := by exact_mod_cast fraction.isLt.le
    calc (fraction.toNat * 2 ^ (-1074 : Int) : ℚ) ≤ 2 ^ (52 : Int) * 2 ^ (-1074 : Int) := by gcongr
      _ = 2 ^ (-1022 : Int) := (zpow_add₀ two_ne_zero _ _).symm
  change Within (unpack Format.binary64 (
    if 2 ^ 11 ≤ (e + 1023 + 52).toNat + 1 then packedInfinity Format.binary64 s
    else if m.log2 + 1 = 53 then packComponents Format.binary64 s
        (BitVec.ofNat 11 (e + 1023 + 52).toNat) (BitVec.ofNat 52 m)
      else packComponents Format.binary64 s 0#11 (BitVec.ofNat 52 m))) _
  rw [if_neg (by omega)]
  split
  · next hbits =>
    obtain ⟨hlow, -⟩ := (Nat.log2_eq_iff hm.ne').mp (show m.log2 = 52 by omega)
    have hexponent : (BitVec.ofNat 11 (e + 1023 + 52).toNat).toNat = (e + 1023 + 52).toNat := by
      rw [BitVec.toNat_ofNat, Nat.mod_eq_of_lt (by omega)]
    have hfraction : 2 ^ 52 + (BitVec.ofNat 52 m).toNat = m := by
      rw [BitVec.toNat_ofNat]
      omega
    apply (within_packComponents s _ ?_).mono
    · split
      · exact (hsubnormal _).trans (le_max_right _ _)
      · next hne =>
        have hpos : (e + 1023 + 52).toNat ≠ 0 := by
          intro hzero
          apply hne
          rw [hzero]
        rw [hfraction, hexponent]
        apply le_of_eq_of_le _ (le_max_left _ _)
        congr 2
        omega
    · intro heq
      have hones := congrArg BitVec.toNat heq
      rw [hexponent] at hones
      simp at hones
      omega
  · apply (within_packComponents s _ (by decide)).mono
    rw [if_pos rfl]
    exact (hsubnormal _).trans (le_max_right _ _)

/-! ### Rounding -/

theorem mantissa_shift (em : ExtendedMantissa) (k : Nat) :
  (em >>> k).mantissa = em.mantissa / 2 ^ k
  := by
  change (k.repeat ExtendedMantissa.shiftRightOne em).mantissa = _
  induction k with
  | zero => simp [Nat.repeat]
  | succ k ih =>
    rw [Nat.repeat]
    simp only [ExtendedMantissa.shiftRightOne]
    rw [ih, Nat.div_div_eq_div_mul, Nat.pow_succ]

theorem mantissa_ofMantissaAndAccuracy (m : Nat) (accuracy : Accuracy) :
  (ExtendedMantissa.ofMantissaAndAccuracy m accuracy).mantissa = m
  := by
  unfold ExtendedMantissa.ofMantissaAndAccuracy
  split <;> rfl

theorem roundedMantissa_le (em : ExtendedMantissa) :
  em.roundedMantissa ≤ em.mantissa + 1
  := by
  obtain ⟨m, r, s⟩ := em
  cases r <;> cases s <;>
    simp only [ExtendedMantissa.roundedMantissa, ExtendedMantissa.accuracy,
      Accuracy.roundToNearestEven] <;> omega

/-- The number of bits by which a mantissa is too long. -/
def excess (m : Nat) (e : Int) : Nat := (max ((m.log2 : Int) + e - 52) (-1074) - e).toNat

theorem shiftToTargetExponent_eq (m : Nat) (e : Int) (accuracy : Accuracy) :
  shiftToTargetExponent Format.binary64 m e accuracy
    = (ExtendedMantissa.ofMantissaAndAccuracy m accuracy >>> excess m e, e + excess m e)
  := by
  have htarget : Format.binary64.targetExponent (totalExponent m e)
      = max ((m.log2 : Int) + e - 52) (-1074) := by
    change max ((m.log2 : Int) + 1 + e - 53) (-1074) = _
    congr 1
    omega
  unfold shiftToTargetExponent shiftToExponent
  simp only [htarget, excess]

/-- A mantissa is shifted and rounded, and shifted again if that has made it too long. -/
theorem exists_roundWithAccuracy (s : Sign) (m : Nat) (e : Int) (accuracy : Accuracy) :
  ∃ r, r ≤ m / 2 ^ excess m e + 1 ∧ (excess m e = 0 → accuracy = .exact → r = m)
    ∧ (roundWithAccuracy Format.binary64 s m e accuracy = .zero s
      ∨ ∃ n hn, n = r / 2 ^ excess r (e + excess m e)
        ∧ roundWithAccuracy Format.binary64 s m e accuracy
          = .finite s n (e + excess m e + excess r (e + excess m e)) hn)
  := by
  use (ExtendedMantissa.ofMantissaAndAccuracy m accuracy >>> excess m e).roundedMantissa
  refine ⟨?_, ?_, ?_⟩
  · have hle := roundedMantissa_le
      (ExtendedMantissa.ofMantissaAndAccuracy m accuracy >>> excess m e)
    rwa [mantissa_shift, mantissa_ofMantissaAndAccuracy] at hle
  · rintro hzero rfl
    rw [hzero]
    rfl
  · unfold roundWithAccuracy
    dsimp only
    rw [shiftToTargetExponent_eq, shiftToTargetExponent_eq]
    generalize (ExtendedMantissa.ofMantissaAndAccuracy m accuracy >>> excess m e).roundedMantissa
      = r
    have hshift := mantissa_shift (ExtendedMantissa.ofMantissaAndAccuracy r .exact)
      (excess r (e + excess m e))
    rw [mantissa_ofMantissaAndAccuracy] at hshift
    by_cases hzero : (ExtendedMantissa.ofMantissaAndAccuracy r .exact
        >>> excess r (e + excess m e)).mantissa = 0
    · rw [dif_pos hzero]
      exact .inl rfl
    · rw [dif_neg hzero]
      exact .inr ⟨_, Nat.pos_of_ne_zero hzero, hshift, rfl⟩

theorem two_zpow_sub_le {n : Int} (h : 2 ^ n ≤ x) :
  (2 ^ (n - 52) : ℚ) ≤ x * 2 ^ (-52 : Int)
  := by
  rw [sub_eq_add_neg, zpow_add₀ two_ne_zero]
  gcongr

/-- The last bit that is kept is worth little. -/
theorem unit_le (hvalue : m * 2 ^ e ≤ x) (hlow : 2 ^ (-1022 : Int) ≤ x) (hshift : excess m e ≠ 0) :
  (2 ^ (e + excess m e) : ℚ) ≤ x * 2 ^ (-52 : Int)
  := by
  obtain heq | ⟨heq, hm⟩ : e + excess m e = (-1022 : Int) - 52
      ∨ e + excess m e = (m.log2 : Int) + e - 52 ∧ m ≠ 0 := by
    by_cases hm : m = 0
    · subst hm
      rw [excess, Nat.log2_zero] at *
      omega
    · unfold excess at *
      omega
  · rw [heq]
    apply two_zpow_sub_le hlow
  · rw [heq]
    apply two_zpow_sub_le
    exact (two_zpow_log2_le hm e).trans hvalue

/-- Rounding makes a number only a little larger. -/
theorem rounded_le {r : Nat} (hvalue : m * 2 ^ e ≤ x) (hx : InRange x)
    (haccuracy : accuracy = .exact ∨ 2 ^ e ≤ x * 2 ^ (-52 : Int))
    (hr : r ≤ m / 2 ^ excess m e + 1) (hexact : excess m e = 0 → accuracy = .exact → r = m) :
  (r * 2 ^ (e + excess m e) : ℚ) ≤ widen x
  := by
  have hone : ∀ unit : ℚ, 0 ≤ unit → unit ≤ x * 2 ^ (-52 : Int) →
      (m / 2 ^ excess m e : Nat) * unit ≤ x → r * unit ≤ widen x := by
    intro unit hunit hle hshifted
    have hr : (r : ℚ) ≤ (m / 2 ^ excess m e : Nat) + 1 := by exact_mod_cast hr
    calc r * unit ≤ ((m / 2 ^ excess m e : Nat) + 1) * unit := by gcongr
      _ = (m / 2 ^ excess m e : Nat) * unit + unit := by ring
      _ ≤ x + x * 2 ^ (-52 : Int) := by gcongr
      _ = widen x := by
        rw [widen]
        ring
  have hshifted := (shifted_le m (excess m e) e).trans hvalue
  by_cases hzero : excess m e = 0
  · obtain rfl | hunit := haccuracy
    · rw [hexact hzero rfl, hzero, Nat.cast_zero, add_zero]
      exact hvalue.trans hx.le_widen
    · apply hone _ (by positivity) _ hshifted
      rwa [hzero, Nat.cast_zero, add_zero]
  · apply hone _ (by positivity) (unit_le hvalue hx.low hzero) hshifted

theorem isStoredWithin_roundWithAccuracy (s : Sign) (hvalue : m * 2 ^ e ≤ x) (hx : InRange x)
    (he : e ≤ 971) (haccuracy : accuracy = .exact ∨ 2 ^ e ≤ x * 2 ^ (-52 : Int)) :
  IsStoredWithin (roundWithAccuracy Format.binary64 s m e accuracy) (widen x)
  := by
  obtain ⟨r, hr, hexact, heq⟩ := exists_roundWithAccuracy s m e accuracy
  have hrounded := rounded_le hvalue hx haccuracy hr hexact
  have hm : (m.log2 : Int) + e < 1024 := by
    by_cases hm : m = 0
    · rw [hm, Nat.log2_zero]
      omega
    · apply log2_add_lt hm (hvalue.trans_lt hx.lt)
  have hr : (r.log2 : Int) + (e + excess m e) < 1024 := by
    by_cases hr : r = 0
    · rw [hr, Nat.log2_zero, excess]
      omega
    · apply log2_add_lt hr (hrounded.trans_lt hx.high)
  have hexponent : e + excess m e + excess r (e + excess m e) ≤ 971 := by
    unfold excess at *
    omega
  obtain heq | ⟨n, hn, rfl, heq⟩ := heq <;> rw [heq]
  · apply isStoredWithin_zero
    exact hx.pos.le.trans hx.le_widen
  · have hlength : r / 2 ^ excess r (e + excess m e) < 2 ^ 53 := by
      apply (Nat.div_lt_iff_lt_mul (by positivity)).mpr
      rw [← Nat.pow_add]
      apply Nat.lt_log2_self.trans_le
      apply Nat.pow_le_pow_right two_pos
      rw [excess]
      omega
    apply (isStoredWithin_finite s _ hlength hexponent).mono
    apply max_le _ (hx.low.trans hx.le_widen)
    exact (shifted_le r _ _).trans hrounded

theorem isStoredWithin_round (s : Sign) (hvalue : m * 2 ^ e ≤ x) (hx : InRange x) (he : e ≤ 971) :
  IsStoredWithin (UnpackedFloat.round Format.binary64 s m e) (widen x)
  := by
  unfold UnpackedFloat.round decreaseExponent
  dsimp only
  generalize (e - Format.binary64.targetExponent (totalExponent m e)).toNat = k
  apply isStoredWithin_roundWithAccuracy s _ hx (by omega) (.inl rfl)
  calc ((m <<< k : Nat) * 2 ^ (e - k) : ℚ) = m * 2 ^ e := by
        rw [Nat.shiftLeft_eq, zpow_sub₀ two_ne_zero, zpow_natCast]
        push_cast
        field_simp
    _ ≤ x := hvalue

theorem isStoredWithin_normalize {n : Int} (hvalue : n.natAbs * 2 ^ e ≤ x) (hx : InRange x)
    (he : e ≤ 971) :
  IsStoredWithin (UnpackedFloat.normalize Format.binary64 n e .positive) (widen x)
  := by
  unfold UnpackedFloat.normalize
  split
  · next hneg =>
    have hn : (-n).toNat = n.natAbs := by
      rw [compare_lt_iff_lt] at hneg
      omega
    rw [hn]
    apply isStoredWithin_round _ hvalue hx he
  · apply isStoredWithin_zero
    exact hx.pos.le.trans hx.le_widen
  · next hpos =>
    have hn : n.toNat = n.natAbs := by
      rw [compare_gt_iff_gt] at hpos
      omega
    rw [hn]
    apply isStoredWithin_round _ hvalue hx he

/-! ### Operations -/

variable {f g : Float} {n : Nat}

theorem magnitude_nonneg (u : UnpackedFloat) :
  0 ≤ magnitude u
  := by
  cases u with
  | finite s m e hm =>
    change (0 : ℚ) ≤ m * 2 ^ e
    positivity
  | notANumber | infinity | zero => exact le_rfl

theorem IsWithin.nonneg (h : IsWithin f x) :
  0 ≤ x
  := (magnitude_nonneg _).trans h.magnitude_le

/-- A finite float is zero, or it consists of a mantissa and an exponent. -/
theorem IsWithin.cases (h : IsWithin f x) :
  (∃ s, f.toModel.unpack = .zero s)
    ∨ ∃ s m e hm, f.toModel.unpack = .finite s m e hm ∧ m * 2 ^ e ≤ x
      ∧ m < 2 ^ 53 ∧ e ≤ 971 ∧ (2 ^ 52 ≤ m ∨ e = -1074)
  := by
  obtain ⟨hfinite, hle⟩ := h
  cases hu : f.toModel.unpack with
  | notANumber | infinity =>
    rw [hu] at hfinite
    exact absurd hfinite Bool.false_ne_true
  | zero s => exact .inl ⟨s, rfl⟩
  | finite s m e hm =>
    rw [hu] at hle
    exact .inr ⟨s, m, e, hm, rfl, hle, bounds_of_unpack hu⟩

theorem isWithin_ofUInt64 {w : UInt64} (hvalue : w.toNat ≤ x) (hx : InRange x) :
  IsWithin w.toFloat (widen x)
  := by
  apply isStoredWithin_normalize _ hx (by decide)
  simpa using hvalue

theorem IsWithin.mul (hf : IsWithin f x) (hg : IsWithin g y) (hrange : InRange (x * y)) :
  IsWithin (f * g) (widen (x * y))
  := by
  change IsStoredWithin (UnpackedFloat.mul Format.binary64 f.toModel.unpack g.toModel.unpack) _
  have hpos : 0 ≤ widen (x * y) := hrange.pos.le.trans hrange.le_widen
  obtain ⟨s, hu⟩ | ⟨s, m, e, hm, hu, hle, hlt, he, hlow⟩ := hf.cases
  · obtain ⟨s', hv⟩ | ⟨s', m', e', hm', hv, -⟩ := hg.cases <;> rw [hu, hv]
    · apply isStoredWithin_zero _ hpos
    · apply isStoredWithin_zero _ hpos
  · obtain ⟨s', hv⟩ | ⟨s', m', e', hm', hv, hle', hlt', he', hlow'⟩ := hg.cases <;> rw [hu, hv]
    · apply isStoredWithin_zero _ hpos
    · have hvalue : ((m * m' : Nat) * 2 ^ (e + e') : ℚ) ≤ x * y := by
        calc ((m * m' : Nat) * 2 ^ (e + e') : ℚ) = m * 2 ^ e * (m' * 2 ^ e') := by
              rw [zpow_add₀ two_ne_zero]
              push_cast
              ring
          _ ≤ x * y := mul_le_mul hle hle' (by positivity) hf.nonneg
      -- The product of a normal float and another one has at least 53 bits.
      have hexponent : e + e' ≤ 971 := by
        have hne : m * m' ≠ 0 := (Nat.mul_pos hm hm').ne'
        have hlog := log2_add_lt hne (hvalue.trans_lt hrange.lt)
        obtain hlow | rfl := hlow
        · have hbits := (Nat.le_log2 hne).mpr (hlow.trans (Nat.le_mul_of_pos_right m hm'))
          omega
        · omega
      apply isStoredWithin_roundWithAccuracy _ hvalue hrange hexponent (.inl rfl)

/-- Bits that are appended leave a number as it is. -/
theorem appended_eq (m : Nat) {e e' : Int} (h : e' ≤ e) :
  ((m <<< (e - e').toNat : Nat) * 2 ^ e' : ℚ) = m * 2 ^ e
  := by
  have heq : (2 ^ e : ℚ) = 2 ^ ((e - e').toNat : Int) * 2 ^ e' := by
    rw [← zpow_add₀ two_ne_zero]
    congr 1
    omega
  rw [Nat.shiftLeft_eq, heq, zpow_natCast]
  push_cast
  ring

theorem natAbs_apply (s : Sign) (n : Int) :
  (s.apply n).natAbs = n.natAbs
  := by
  cases s
  · exact Int.natAbs_neg n
  · rfl

theorem IsWithin.add (hf : IsWithin f x) (hg : IsWithin g y) (hx : InRange x) (hy : InRange y)
    (hrange : InRange (x + y)) :
  IsWithin (f + g) (widen (x + y))
  := by
  change IsStoredWithin (UnpackedFloat.add Format.binary64 f.toModel.unpack g.toModel.unpack) _
  have hlex : x ≤ widen (x + y) := (le_add_of_nonneg_right hy.pos.le).trans hrange.le_widen
  have hley : y ≤ widen (x + y) := (le_add_of_nonneg_left hx.pos.le).trans hrange.le_widen
  obtain ⟨s, hu⟩ | ⟨s, m, e, hm, hu, hle, hlt, he, -⟩ := hf.cases
  · obtain ⟨s', hv⟩ | ⟨s', m', e', hm', hv, hle', hlt', he', -⟩ := hg.cases <;> rw [hu, hv]
    · have hpos := hx.pos.le.trans hlex
      cases s <;> cases s' <;> exact isStoredWithin_zero _ hpos
    · apply (isStoredWithin_finite _ _ hlt' he').mono
      exact max_le (hle'.trans hley) (hy.low.trans hley)
  · obtain ⟨s', hv⟩ | ⟨s', m', e', hm', hv, hle', hlt', he', -⟩ := hg.cases <;> rw [hu, hv]
    · apply (isStoredWithin_finite _ _ hlt he).mono
      exact max_le (hle.trans hlex) (hx.low.trans hlex)
    · have htriangle := Int.natAbs_add_le (s.apply ↑(m <<< (e - min e e').toNat))
        (s'.apply ↑(m' <<< (e' - min e e').toNat))
      rw [natAbs_apply, natAbs_apply, Int.natAbs_natCast, Int.natAbs_natCast] at htriangle
      apply isStoredWithin_normalize _ hrange (by omega)
      calc _ ≤ ((m <<< (e - min e e').toNat + m' <<< (e' - min e e').toNat : Nat) : ℚ)
            * 2 ^ min e e' := by
            gcongr
        _ = m * 2 ^ e + m' * 2 ^ e' := by
          rw [Nat.cast_add, add_mul, appended_eq m (min_le_left e e'),
            appended_eq m' (min_le_right e e')]
        _ ≤ x + y := add_le_add hle hle'

/-- The leading bit of a quotient. -/
theorem two_zpow_le_div {m' : Nat} (hm : m ≠ 0) (hm' : 0 < m') (e e' : Int) :
  (2 ^ ((m.log2 : Int) + e - (m'.log2 + 1 + e')) : ℚ) ≤ m * 2 ^ e / (m' * 2 ^ e')
  := by
  have hpos : (0 : ℚ) < m' * 2 ^ e' := by positivity
  rw [zpow_sub₀ two_ne_zero]
  gcongr
  · apply two_zpow_log2_le hm
  · exact (lt_two_zpow_log2 m' e').le

theorem IsWithin.div {m' : Nat} {e' : Int} {hm' : 0 < m'} (hf : IsWithin f x)
    (hg : g.toModel.unpack = .finite s m' e' hm') (hrange : InRange (x / (m' * 2 ^ e'))) :
  IsWithin (f / g) (widen (x / (m' * 2 ^ e')))
  := by
  change IsStoredWithin (UnpackedFloat.div Format.binary64 f.toModel.unpack g.toModel.unpack) _
  obtain ⟨s', hu⟩ | ⟨s', m, e, hm, hu, hle, -⟩ := hf.cases <;> rw [hu, hg]
  · apply isStoredWithin_zero _ (hrange.pos.le.trans hrange.le_widen)
  · have hquotient : m * 2 ^ e / (m' * 2 ^ e') ≤ x / (m' * 2 ^ e') := by gcongr
    have hlog := (two_zpow_le_div hm.ne' hm' e e').trans hquotient
    have htarget : Format.binary64.targetExponent (totalExponent m e - totalExponent m' e')
        = max ((m.log2 : Int) + e - (m'.log2 + 1 + e') - 52) (-1022 - 52) := by
      change max ((m.log2 : Int) + 1 + e - (m'.log2 + 1 + e') - 53) (-1074) = _
      congr 1
      omega
    unfold UnpackedFloat.div divCore
    dsimp only
    rw [htarget]
    generalize htarget : min (e - e')
      (max ((m.log2 : Int) + e - (m'.log2 + 1 + e') - 52) (-1022 - 52)) = t
    apply isStoredWithin_roundWithAccuracy _ _ hrange
    · have hlt := (zpow_lt_zpow_iff_right₀ one_lt_two).mp (hlog.trans_lt hrange.lt)
      omega
    · right
      obtain hle | hle := le_max_iff.mp (htarget ▸ min_le_right _ _ :
          t ≤ max ((m.log2 : Int) + e - (m'.log2 + 1 + e') - 52) (-1022 - 52))
      · exact (zpow_le_zpow_right₀ one_le_two hle).trans (two_zpow_sub_le hlog)
      · exact (zpow_le_zpow_right₀ one_le_two hle).trans (two_zpow_sub_le hrange.low)
    · have hle : t ≤ e - e' := htarget ▸ min_le_left _ _
      calc ((m <<< (e - e' - t).toNat / m' : Nat) * 2 ^ t : ℚ)
          ≤ (m <<< (e - e' - t).toNat : Nat) / m' * 2 ^ t := by
            gcongr
            apply Nat.cast_div_le
        _ = (m <<< (e - e' - t).toNat : Nat) * 2 ^ t / m' := by ring
        _ = m * 2 ^ (e - e') / m' := by rw [appended_eq m hle]
        _ = m * 2 ^ e / (m' * 2 ^ e') := by
          rw [zpow_sub₀ two_ne_zero]
          field_simp
        _ ≤ x / (m' * 2 ^ e') := hquotient

/-! ### Whole numbers and powers of ten -/

theorem inRange_natCast {k : Nat} (hlow : 0 < k) (hhigh : k * (2 ^ 52 + 1) < 2 ^ 1024 * 2 ^ 52) :
  InRange k
  := by
  have hhigh : (k : ℚ) * (2 ^ 52 + 1) < 2 ^ (1024 : Int) * 2 ^ 52 := by exact_mod_cast hhigh
  constructor
  · calc (2 ^ (-1022 : Int) : ℚ) ≤ 1 := zpow_le_one_of_nonpos₀ one_le_two (by decide)
      _ ≤ k := by exact_mod_cast hlow
  · have hwiden : widen k = k * (2 ^ 52 + 1) / 2 ^ 52 := by
      rw [widen_eq]
      field_simp
    rwa [hwiden, div_lt_iff₀ (by positivity)]

theorem isWithin_scaled {k : Nat} (hk : k ≤ 2048) (hx : InRange x)
    (hvalue : (n * 10 ^ k : Nat) ≤ x) :
  IsWithin (.ofModel (.ofScientific n k)) (widen x)
  := by
  change IsStoredWithin (UnpackedFloat.ofScientific Format.binary64 n k) _
  unfold UnpackedFloat.ofScientific
  by_cases hn : n = 0
  · rw [dif_pos hn]
    apply isStoredWithin_zero _ (hx.pos.le.trans hx.le_widen)
  · have hbits : (2 : Int) ^ Format.binary64.exponentBits = 2048 := rfl
    rw [dif_neg hn, if_neg (by omega), if_neg (by omega), if_pos (by omega)]
    apply isStoredWithin_roundWithAccuracy _ _ hx (by decide) (.inl rfl)
    apply le_of_eq_of_le _ hvalue
    change (((n <<< 53 * 10 ^ k : Nat) : ℚ) * 2 ^ (-53 : Int)) = _
    rw [Nat.shiftLeft_eq, zpow_neg]
    push_cast
    field_simp

theorem isWithin_powerOfTen {k : Nat} (hk : k ≤ 308) :
  IsWithin (Float.ofScientific 1 false k) (widen (10 ^ k : Nat))
  := by
  have hsmall : ∀ i < 23, Float.ofScientific 1 false i = .ofModel (.ofScientific 1 i) := by
    decide +kernel
  have heq : Float.ofScientific 1 false k = .ofModel (.ofScientific 1 k) := by
    by_cases h : k < 23
    · apply hsmall k h
    · rw [Float.ofScientific, dif_neg (by omega)]
      rfl
  rw [heq]
  apply isWithin_scaled (by omega)
  · apply inRange_natCast (by positivity)
    apply (Nat.mul_le_mul_right _ (Nat.pow_le_pow_right (by decide) hk)).trans_lt
    decide +kernel
  · rw [one_mul]

theorem isWithin_ofNat (hlow : 1 ≤ x) (hhigh : x ≤ 2 ^ 99) (hvalue : n ≤ x) :
  IsWithin (Float.ofNat n) (4 * x)
  := by
  have hx := inRange_of_le hlow (by linarith)
  have hle := hx.le_widen
  have htwice : widen x ≤ 2 * x := widen_le hx.pos.le le_rfl
  have hx' := inRange_of_le (hlow.trans hle) (by linarith)
  -- A whole number is rounded, and may be rounded once more where it is multiplied by one.
  apply Within.mono _ (widen_le hx'.pos.le (by linarith))
  change IsWithin (Float.ofScientific n false 0) _
  rw [Float.ofScientific]
  split
  · next hn =>
    have hone : IsWithin Float.exactlyRepresentablePowersOfTen[0] 1 := by
      have hunpack : Float.exactlyRepresentablePowersOfTen[0].toModel.unpack
          = .finite .positive (2 ^ 52) (-52) (by decide) := rfl
      constructor
      · rw [hunpack]
        rfl
      · rw [hunpack]
        change ((2 ^ 52 : Nat) * 2 ^ (-52 : Int) : ℚ) ≤ 1
        norm_num
    have hword : (n.toUInt64.toNat : ℚ) ≤ x := by
      rw [Nat.toUInt64_eq, UInt64.toNat_ofNat', Nat.mod_eq_of_lt (by omega)]
      exact hvalue
    have hmul := (isWithin_ofUInt64 hword hx).mul hone (by rwa [mul_one])
    rwa [mul_one] at hmul
  · apply Within.mono _ hx'.le_widen
    apply isWithin_scaled (by omega) hx
    simpa using hvalue

end MutationTesting.Decimal
