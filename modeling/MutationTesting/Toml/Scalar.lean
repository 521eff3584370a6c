import MutationTesting.Text.Numeral
import MutationTesting.Toml

/-!
# Numbers and points in time in TOML

`scalar?` tells what a run of letters, digits and signs is: a truth value, an integer of
64 bits, a float, or a point in time.
-/

namespace MutationTesting.Toml

open Text (isDigit digitsValue)

/-- Whether digits stand with at most single underscores between them. -/
def isGrouped (isDigit : Char → Bool) (cs : List Char) : Bool :=
  cs.head?.any isDigit && cs.getLast?.any isDigit
    && (cs.zip (cs.drop 1)).all (fun (a, b) => (isDigit a || a == '_') && (isDigit a || isDigit b))

def withoutUnderscores (cs : List Char) : List Char := cs.filter (· != '_')

/-- A sign in front of a number, and the number without it. -/
def splitSign : List Char → Option Char × List Char
  | '+' :: cs => (some '+', cs)
  | '-' :: cs => (some '-', cs)
  | cs => (none, cs)

/-- Whether a text is a decimal number without a leading zero. -/
def isDecimal (cs : List Char) : Bool :=
  isGrouped isDigit cs && (cs.length == 1 || cs.head? != some '0')

def digitValue (c : Char) : Nat :=
  if isDigit c then c.toNat - '0'.toNat
  else if 'a' ≤ c && c ≤ 'f' then c.toNat - 'a'.toNat + 10
  else if 'A' ≤ c && c ≤ 'F' then c.toNat - 'A'.toNat + 10
  else 16

def inRadix (radix : Nat) (c : Char) : Bool := digitValue c < radix

/-- The least number that 64 bits with a sign do not hold. -/
def integerLimit : Nat := 9223372036854775808

/-- The value of an integer written in a radix, when 64 bits hold it. -/
def radixInteger? (radix : Nat) (cs : List Char) : Option Int :=
  if isGrouped (inRadix radix) cs then
    let n := (withoutUnderscores cs).foldl (fun n c => radix * n + digitValue c) 0
    if n < integerLimit then some n else none
  else none

/-- The value of an integer. -/
def integer? : List Char → Option Int
  | '0' :: 'x' :: cs => radixInteger? 16 cs
  | '0' :: 'o' :: cs => radixInteger? 8 cs
  | '0' :: 'b' :: cs => radixInteger? 2 cs
  | cs =>
    let (sign, digits) := splitSign cs
    if isDecimal digits then
      let n : Int := digitsValue (withoutUnderscores digits)
      let n := if sign == some '-' then -n else n
      if -(integerLimit : Int) ≤ n && n < integerLimit then some n else none
    else none

/-- Whether the number with these digits before and after the point, times a power of ten,
is too large for a float. -/
def overflows (whole fraction : List Char) (exponent : Int) : Bool :=
  let n := digitsValue (whole ++ fraction)
  let e := exponent - fraction.length
  if n = 0 then false
  else if 400 < e then true
  else if e < -400 - (whole.length + fraction.length : Int) then false
  else (Float.ofScientific n (e < 0) e.natAbs).isInf

/-- Whether a text is a float; a positive one that is too large is none. -/
def isFloat (cs : List Char) : Bool :=
  let (sign, body) := splitSign cs
  if body == ['i', 'n', 'f'] || body == ['n', 'a', 'n'] then true
  else
    let isMark (c : Char) : Bool := c == 'e' || c == 'E'
    let mantissa := body.takeWhile (!isMark ·)
    let exponent := body.dropWhile (!isMark ·)
    let whole := mantissa.takeWhile (· != '.')
    let fraction := mantissa.dropWhile (· != '.')
    let (down, power) := splitSign (exponent.drop 1)
    let power' : Int := digitsValue (withoutUnderscores power)
    !(fraction.isEmpty && exponent.isEmpty)
      && isDecimal whole
      && (fraction.isEmpty || isGrouped isDigit (fraction.drop 1))
      && (exponent.isEmpty || isGrouped isDigit power)
      && (sign == some '-' || !overflows (withoutUnderscores whole)
        (withoutUnderscores (fraction.drop 1)) (if down == some '-' then -power' else power'))

/-! ### Points in time -/

/-- The value of exactly `n` digits. -/
def exactly? (n : Nat) (cs : List Char) : Option Nat :=
  if cs.length == n && cs.all isDigit then some (digitsValue cs) else none

def isLeapYear (year : Nat) : Bool := year % 4 == 0 && (year % 100 != 0 || year % 400 == 0)

def daysIn (year month : Nat) : Nat :=
  if month = 2 then if isLeapYear year then 29 else 28
  else if month = 4 || month = 6 || month = 9 || month = 11 then 30
  else 31

/-- Whether a text is a date `yyyy-mm-dd`. -/
def isDate (cs : List Char) : Bool :=
  cs.length == 10 && cs[4]? == some '-' && cs[7]? == some '-'
    && match exactly? 4 (cs.take 4), exactly? 2 ((cs.drop 5).take 2), exactly? 2 (cs.drop 8) with
      | some year, some month, some day =>
        1 ≤ month && month ≤ 12 && 1 ≤ day && day ≤ daysIn year month
      | _, _, _ => false

/-- Whether a text is a time `hh:mm:ss` with an optional fraction. -/
def isTime (cs : List Char) : Bool :=
  let fraction := cs.drop 8
  cs[2]? == some ':' && cs[5]? == some ':'
    && (match exactly? 2 (cs.take 2), exactly? 2 ((cs.drop 3).take 2),
        exactly? 2 ((cs.drop 6).take 2) with
      | some hour, some minute, some second => hour ≤ 23 && minute ≤ 59 && second ≤ 60
      | _, _, _ => false)
    && (fraction.isEmpty
      || (fraction.head? == some '.' && 2 ≤ fraction.length && (fraction.drop 1).all isDigit))

/-- Whether a text is an offset from universal time. -/
def isOffset (cs : List Char) : Bool :=
  cs == ['Z'] || cs == ['z']
    || ((cs.head? == some '+' || cs.head? == some '-') && cs[3]? == some ':'
      && match exactly? 2 ((cs.drop 1).take 2), exactly? 2 (cs.drop 4) with
        | some hour, some minute => hour ≤ 23 && minute ≤ 59
        | _, _ => false)

/-- Whether a text is a time, with an offset or without. -/
def isOffsetTime (cs : List Char) : Bool :=
  let inTime (c : Char) : Bool := isDigit c || c == ':' || c == '.'
  let offset := cs.dropWhile inTime
  isTime (cs.takeWhile inTime) && (offset.isEmpty || isOffset offset)

/-- Whether a text without blanks is a point in time. -/
def isDatetime (cs : List Char) : Bool :=
  isDate cs || isTime cs
    || (isDate (cs.take 10) && (cs[10]? == some 'T' || cs[10]? == some 't')
      && isOffsetTime (cs.drop 11))

/-- The value of a word that is no string. -/
def scalar? (cs : List Char) : Option Toml :=
  if cs == ['t', 'r', 'u', 'e'] then some (.boolean true)
  else if cs == ['f', 'a', 'l', 's', 'e'] then some (.boolean false)
  else match integer? cs with
    | some n => some (.integer n)
    | none =>
      if isFloat cs then some .float
      else if isDatetime cs then some .datetime
      else none

end MutationTesting.Toml
