/-!
# Whole numbers in a text

The unsigned 64-bit numbers as they are written in options and files: decimal digits,
after an optional plus sign.
-/

namespace MutationTesting.Text

/-- The largest unsigned number of 64 bits. -/
def maxWord : Nat := 18446744073709551615

def isDigit (c : Char) : Bool := '0' ≤ c && c ≤ '9'

/-- The value of a run of decimal digits, whatever stands there. -/
def digitsValue (cs : List Char) : Nat :=
  cs.foldl (fun n c => 10 * n + (c.toNat - '0'.toNat)) 0

/-- The value of one or more decimal digits, when it fits into 64 bits. -/
def digits? (cs : List Char) : Option Nat :=
  if cs.isEmpty || !cs.all isDigit then none
  else if digitsValue cs ≤ maxWord then some (digitsValue cs) else none

/-- The value of decimal digits after an optional plus sign, when it fits into 64 bits. -/
def number? : List Char → Option Nat
  | '+' :: cs => digits? cs
  | cs => digits? cs

end MutationTesting.Text
