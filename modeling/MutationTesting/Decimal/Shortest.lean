import MutationTesting.Decimal.Binary

/-!
# The shortest decimal of a float

`shortest` gives the fewest decimal digits that read back as a given float, and of those
the nearest to it.  `layout` writes them: with a decimal point and at least one digit on
each side of it, or with an exponent where the number is very large or very small.
-/

namespace MutationTesting.Decimal

/-- The number `digits * 10 ^ exponent`. -/
structure Scaled where
  digits : Nat
  exponent : Int
  deriving DecidableEq, Repr

/-- The fractions between which every number reads as the same float, and that float, all
over one denominator. -/
structure Interval where
  low : Nat
  value : Nat
  high : Nat
  den : Nat
  /-- Whether the ends read as the float too. -/
  closed : Bool

/-- The numbers that are nearer to a float than to its neighbours. -/
def Binary.interval (b : Binary) : Interval :=
  let (unit, den) := scale 1 (b.exponent - 2)
  { low := (4 * b.mantissa - if b.narrowBelow then 1 else 2) * unit
    value := 4 * b.mantissa * unit
    high := (4 * b.mantissa + 2) * unit
    den := den
    closed := b.mantissa % 2 = 0 }

/-- Whether `n * 10 ^ e` lies in an interval. -/
def Interval.contains (i : Interval) (n : Nat) (e : Int) : Bool :=
  let (num, den) := if 0 ≤ e then (n * Nat.pow 10 e.toNat, 1) else (n, Nat.pow 10 (-e).toNat)
  let x := num * i.den
  if i.closed then i.low * den ≤ x && x ≤ i.high * den else i.low * den < x && x < i.high * den

/-- The distance from `n * 10 ^ e` to the float of an interval, in a unit that depends on
`e` alone. -/
def Interval.distance (i : Interval) (n : Nat) (e : Int) : Nat :=
  let (num, den) := if 0 ≤ e then (n * Nat.pow 10 e.toNat, 1) else (n, Nat.pow 10 (-e).toNat)
  ((num * i.den : Int) - (i.value * den : Int)).natAbs

/-- The exponent of ten of the leading digit of a fraction that is not zero. -/
def leadingExponent (num den : Nat) : Int :=
  let guess : Int := ((toString num).length : Int) - (toString den).length
  let atLeast (e : Int) : Bool :=
    if 0 ≤ e then den * Nat.pow 10 e.toNat ≤ num else den ≤ num * Nat.pow 10 (-e).toNat
  if atLeast guess then guess else guess - 1

/-- The multiple of `10 ^ e` in an interval that is nearest to its float; of two that are
equally near, the even one. -/
def Interval.onGrid? (i : Interval) (e : Int) : Option Nat :=
  let below :=
    if 0 ≤ e then i.value / (i.den * Nat.pow 10 e.toNat)
    else i.value * Nat.pow 10 (-e).toNat / i.den
  match i.contains below e, i.contains (below + 1) e with
  | false, false => none
  | true, false => some below
  | false, true => some (below + 1)
  | true, true =>
    let down := i.distance below e
    let up := i.distance (below + 1) e
    if down < up then some below
    else if up < down then some (below + 1)
    else if below % 2 = 0 then some below else some (below + 1)

/-- Takes the zeros at the end of the digits into the exponent. -/
def Scaled.normalize : Nat → Scaled → Scaled
  | 0, s => s
  | fuel + 1, s =>
    if s.digits ≠ 0 && s.digits % 10 = 0 then normalize fuel ⟨s.digits / 10, s.exponent + 1⟩
    else s

/-- The fewest digits that read back as a float that is not zero. -/
def Binary.shortest (b : Binary) : Scaled :=
  let i := b.interval
  let top := leadingExponent i.value i.den
  let found := (List.range 17).findSome? fun (n : Nat) =>
    let e := top - n
    (i.onGrid? e).map fun digits => (⟨digits, e⟩ : Scaled)
  (found.getD ⟨0, 0⟩).normalize 20

/-- Writes digits and exponent: positional for numbers from `0.00001` up to `10 ^ 16`, else
with an exponent that always has a sign. -/
def layout (s : Scaled) : List Char :=
  let digits := (toString s.digits).toList
  let length := digits.length
  let point : Int := length + s.exponent
  if -5 < point && point ≤ 16 then
    if 0 ≤ s.exponent then digits ++ List.replicate s.exponent.toNat '0' ++ ['.', '0']
    else if 0 < point then digits.take point.toNat ++ '.' :: digits.drop point.toNat
    else ['0', '.'] ++ List.replicate (-point).toNat '0' ++ digits
  else
    let mantissa := if length = 1 then digits else digits.take 1 ++ '.' :: digits.drop 1
    let e := point - 1
    mantissa ++ ['e', if 0 ≤ e then '+' else '-'] ++ (toString e.natAbs).toList

/-- The shortest text of a finite float that reads back as it. -/
def shortest? (f : Float) : Option String :=
  (Binary.ofFloat? f).map fun b =>
    let text := if b.mantissa = 0 then ['0', '.', '0'] else layout b.shortest
    String.ofList (if b.negative then '-' :: text else text)

end MutationTesting.Decimal
