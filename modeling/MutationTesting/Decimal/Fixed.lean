import MutationTesting.Decimal.Binary
import MutationTesting.Decimal.Shortest

/-!
# Numbers with a fixed number of digits

`fixed` prints a float with a number of decimal places, `scientific` with one digit before the
point and an exponent, and `general` with so many digits that count, with an exponent only where
the number is very large or very small.  All round the exact value, with ties to even.
-/

namespace MutationTesting.Decimal

/-- The digits of a number, with zeros in front up to a length. -/
def paddedDigits (length n : Nat) : List Char :=
  let digits := (toString n).toList
  List.replicate (length - digits.length) '0' ++ digits

/-- A number of `places`-th parts of one, written with a decimal point. -/
def pointed (places n : Nat) : List Char :=
  let digits := paddedDigits (places + 1) n
  let whole := digits.take (digits.length - places)
  if places = 0 then whole else whole ++ '.' :: digits.drop (digits.length - places)

/-- A number in decimal with so many places, where a half goes to the even neighbour. -/
def fixed (places : Nat) (f : Float) : String :=
  match Binary.ofFloat? f with
  | none => if f.isNaN then "NaN" else if f < 0 then "-inf" else "inf"
  | some b =>
    let (num, den) := scale b.mantissa b.exponent
    let text := String.ofList (pointed places (roundDiv (num * Nat.pow 10 places) den))
    if b.negative then "-" ++ text else text

/-! ### Exponents -/

/-- A number of `places + 1` digits and an exponent of ten that a fraction rounds to. -/
def roundedDigits (places num den : Nat) : Nat × Int :=
  if num = 0 then (0, 0)
  else
    let e := leadingExponent num den
    let shift : Int := (places : Int) - e
    let q := if 0 ≤ shift then roundDiv (num * Nat.pow 10 shift.toNat) den
      else roundDiv num (den * Nat.pow 10 (-shift).toNat)
    if q = Nat.pow 10 (places + 1) then (q / 10, e + 1) else (q, e)

/-- Digits with a point after the first one. -/
def mantissa (places digits : Nat) : List Char :=
  let cs := paddedDigits (places + 1) digits
  if places = 0 then cs else cs.take 1 ++ '.' :: cs.drop 1

/-- An exponent with its sign and at least two digits. -/
def exponentText (e : Int) : List Char :=
  ['e', if e < 0 then '-' else '+'] ++ paddedDigits 2 e.natAbs

/-- Text for a float that is no number, or is infinite. -/
def infiniteText (f : Float) : String :=
  if f.isNaN then "nan" else "inf"

/-- The digits of the absolute value of a float, with an exponent. -/
def scientific (places : Nat) (f : Float) : String :=
  match Binary.ofFloat? f with
  | none => infiniteText f
  | some b =>
    let (num, den) := scale b.mantissa b.exponent
    let (digits, e) := roundedDigits places num den
    String.ofList (mantissa places digits ++ exponentText e)

/-- The digits of the absolute value of a float, with so many places. -/
def placed (places : Nat) (f : Float) : String :=
  match Binary.ofFloat? f with
  | none => infiniteText f
  | some b =>
    let (num, den) := scale b.mantissa b.exponent
    String.ofList (pointed places (roundDiv (num * Nat.pow 10 places) den))

/-- Digits with a point, without the zeros at their end. -/
def withoutZeros (cs : List Char) : List Char :=
  if cs.contains '.' then
    let kept := (cs.reverse.dropWhile (· == '0')).reverse
    if kept.getLast? == some '.' then kept.dropLast else kept
  else cs

/-- The digits of the absolute value of a float, of which so many count; `full` keeps zeros at
the end. -/
def general (precision : Nat) (full : Bool) (f : Float) : String :=
  match Binary.ofFloat? f with
  | none => infiniteText f
  | some b =>
    let (num, den) := scale b.mantissa b.exponent
    let precision := max precision 1
    let (digits, e) := roundedDigits (precision - 1) num den
    let strip (cs : List Char) : List Char := if full then cs else withoutZeros cs
    if -4 ≤ e && e < (precision : Int) then
      let places := ((precision : Int) - 1 - e).toNat
      String.ofList (strip (pointed places (roundDiv (num * Nat.pow 10 places) den)))
    else String.ofList (strip (mantissa (precision - 1) digits) ++ exponentText e)

/-- Whether the sign bit of a float is set. -/
def isNegative (f : Float) : Bool := signBit ≤ f.toBits.toNat

/-- The float that a decimal number at the start of a text is for, and what follows it. -/
def float? (cs : List Char) : Option (Float × List Char) :=
  let (negative, body) := match cs with
    | '-' :: rest => (true, rest)
    | '+' :: rest => (false, rest)
    | cs => (false, cs)
  let isDigit (c : Char) : Bool := '0' ≤ c && c ≤ '9'
  let whole := body.takeWhile isDigit
  let afterWhole := body.drop whole.length
  let (places, afterPlaces) := match afterWhole with
    | '.' :: rest => (rest.takeWhile isDigit, rest.dropWhile isDigit)
    | rest => ([], rest)
  if whole.isEmpty && places.isEmpty then none
  else
    let value (digits : List Char) : Nat :=
      digits.foldl (fun n c => 10 * n + (c.toNat - '0'.toNat)) 0
    let exponent? : Option (Int × List Char) :=
      match afterPlaces with
      | c :: rest =>
        if c == 'e' || c == 'E' then
          let (minus, rest) := match rest with
            | '-' :: rest => (true, rest)
            | '+' :: rest => (false, rest)
            | rest => (false, rest)
          let digits := rest.takeWhile isDigit
          if digits.isEmpty then none
          else
            let e : Int := min (value digits) 5000
            some (if minus then -e else e, rest.drop digits.length)
        else none
      | [] => none
    let (e, rest) := exponent?.getD (0, afterPlaces)
    let e := e - (places.length : Int)
    let m := value (whole ++ places)
    let magnitude :=
      if m = 0 then 0.0
      else Float.ofScientific m (e < 0) e.natAbs
    some (if negative then -magnitude else magnitude, rest)

end MutationTesting.Decimal
