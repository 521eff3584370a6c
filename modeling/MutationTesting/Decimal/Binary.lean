/-!
# Floating-point numbers as fractions

A finite float is a whole number times a power of two.  `Binary.ofFloat?` takes a float
apart, and `roundDiv` rounds a fraction to the nearest whole number, ties to even.
-/

namespace MutationTesting.Decimal

/-- The number `mantissa * 2 ^ exponent`, or its negative. -/
structure Binary where
  negative : Bool
  mantissa : Nat
  exponent : Int
  /-- Whether the next smaller float is only half as far away as the next larger one. -/
  narrowBelow : Bool
  deriving DecidableEq, Repr

/-- The weight of the bit for the sign. -/
def signBit : Nat := 9223372036854775808

/-- The weight of the bit above the fraction, which is not stored. -/
def hiddenBit : Nat := 4503599627370496

/-- The parts of a finite float. -/
def Binary.ofFloat? (f : Float) : Option Binary :=
  let bits := f.toBits.toNat
  let negative := signBit ≤ bits
  let field : Nat := bits / hiddenBit % 2048
  let fraction : Nat := bits % hiddenBit
  if field = 2047 then none
  else if field = 0 then some ⟨negative, fraction, -1074, false⟩
  else some ⟨negative, fraction + hiddenBit, (field : Int) - 1075, fraction = 0 && 1 < field⟩

/-- `m * 2 ^ e` as a numerator and a denominator. -/
def scale (m : Nat) (e : Int) : Nat × Nat :=
  if 0 ≤ e then (m * Nat.pow 2 e.toNat, 1) else (m, Nat.pow 2 (-e).toNat)

/-- The whole number nearest to a fraction; of two that are equally near, the even one. -/
def roundDiv (num den : Nat) : Nat :=
  let q := num / den
  let twice := 2 * (num % den)
  if twice < den then q
  else if den < twice then q + 1
  else if q % 2 = 0 then q else q + 1

end MutationTesting.Decimal
