import MutationTesting.Decimal.Shortest
import MutationTesting.Json.Reader
import MutationTesting.Text.Numeral

/-!
# The numbers that JSON texts stand for

`word?` reads an unsigned number of 64 bits, and `float?` a float.  A float is read from
as many leading digits as fit into 64 bits, which are then scaled by a power of ten; it
need not be the float nearest to the text.
-/

namespace MutationTesting.Json

/-- The number that a text without sign, point and exponent stands for. -/
def word? (text : String) : Option Nat :=
  if text.toList.all isDigit then Text.digits? text.toList else none

/-- Appends digits to a number as long as it fits into 64 bits; gives the number and how
many digits did not fit. -/
def absorb (n : Nat) : List Char → Nat × Nat
  | [] => (n, 0)
  | c :: cs =>
    let next := 10 * n + (c.toNat - '0'.toNat)
    if next ≤ Text.maxWord then absorb next cs else (n, (c :: cs).length)

/-- `f * 10 ^ e`, with the power rounded first; nothing where the product is too large. -/
def scaleFloat? : Nat → Float → Int → Option Float
  | 0, f, _ => some f
  | fuel + 1, f, e =>
    if 308 < e.natAbs then
      if f == 0 then some f
      else if 0 ≤ e then none
      else scaleFloat? fuel (f / Float.ofScientific 1 false 308) (e + 308)
    else
      let power := Float.ofScientific 1 false e.natAbs
      if 0 ≤ e then
        let product := f * power
        if product.isInf then none else some product
      else some (f / power)

/-- The largest exponent that is told from all larger ones. -/
def maxExponent : Nat := 2147483647

/-- The float that a number stands for, unless it is too large for one. -/
def float? (text : String) : Option Float := do
  let (negative, cs) := match text.toList with
    | '-' :: cs => (true, cs)
    | cs => (false, cs)
  let (whole, cs) ← wholePart? cs
  let (fraction, cs) ← fractionPart? cs
  let (exponent, _) ← exponentPart? cs
  let (n, skipped) := absorb 0 whole
  let fraction := fraction.drop 1
  let (n, unused) := absorb n fraction
  let start : Int := (skipped : Int) - ((fraction.length : Int) - unused)
  let f := n.toUInt64.toFloat
  let (down, power) := match exponent.drop 1 with
    | '-' :: digits => (true, Text.digitsValue digits)
    | '+' :: digits => (false, Text.digitsValue digits)
    | digits => (false, Text.digitsValue digits)
  let magnitude ←
    if maxExponent < power then if n ≠ 0 && !down then none else some 0
    else scaleFloat? 16 f (if down then start - power else start + power)
  return if negative then -magnitude else magnitude

/-- The number that a value is, when it is one of 64 bits without sign, point and exponent. -/
def natural? : Json → Option Nat
  | .number text => word? text
  | _ => none

/-- The float that a value is. -/
def real? : Json → Option Float
  | .number text => float? text
  | _ => none

/-- A float as a number, or null when it is none. -/
def ofFloat (f : Float) : Json := ((Decimal.shortest? f).map Json.number).getD .null

end MutationTesting.Json
