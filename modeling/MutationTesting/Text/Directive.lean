import MutationTesting.Decimal.Fixed

/-!
# Conversion directives

A directive such as `%-8.3f` says how a value is printed: with what sign, in how many columns,
with how many digits.  `Directive.read` reads one up to its letter, and the other functions
print texts and numbers by one.
-/

namespace MutationTesting.Text

/-- How a value is laid out. -/
structure Directive where
  flags : List Char := []
  width : Nat := 0
  precision : Option Nat := none
  deriving DecidableEq, Repr

/-- A number in a directive: written there, or given by an argument. -/
inductive Amount where
  | given (n : Nat)
  | argument
  deriving DecidableEq, Repr

/-- A directive as it is written. -/
structure WrittenDirective where
  flags : List Char
  width : Amount
  precision : Option Amount
  deriving DecidableEq, Repr

namespace Directive

def has (d : Directive) (flag : Char) : Bool := d.flags.contains flag

/-- A number of a directive, and what follows it. -/
def amount (cs : List Char) : Amount × List Char :=
  match cs with
  | '*' :: rest => (.argument, rest)
  | cs =>
    let digits := cs.takeWhile fun c => '0' ≤ c && c ≤ '9'
    (.given (digits.foldl (fun n c => 10 * n + (c.toNat - '0'.toNat)) 0), cs.drop digits.length)

/-- Reads a directive after its percent sign; what follows it starts with its letter. -/
def read (cs : List Char) : WrittenDirective × List Char :=
  let flags := cs.takeWhile "#-+ 0".toList.contains
  let (width, rest) := amount (cs.drop flags.length)
  match rest with
  | '.' :: rest =>
    let (precision, rest) := amount rest
    (⟨flags, width, some precision⟩, rest)
  | rest => (⟨flags, width, none⟩, rest)

/-- A directive with a width that may be negative, and so means to start at the left. -/
def ofAmounts (flags : List Char) (width : Int) (precision : Option Int) : Directive where
  flags := if width < 0 then '-' :: flags else flags
  width := width.natAbs
  precision := precision.bind fun n => if n < 0 then none else some n.toNat

/-- A text in the columns of a directive; a sign and zeros may stand before its body. -/
def pad (d : Directive) (zeros : Bool) (sign body : String) : String :=
  let blanks (c : Char) : String :=
    String.ofList (List.replicate (d.width - sign.length - body.length) c)
  if d.has '-' then sign ++ body ++ blanks ' '
  else if zeros && d.has '0' then sign ++ blanks '0' ++ body
  else blanks ' ' ++ sign ++ body

/-- Prints a text, or so many characters of it. -/
def text (d : Directive) (s : String) : String :=
  d.pad false "" (match d.precision with
    | some n => String.ofList (s.toList.take n)
    | none => s)

/-- The sign of a number. -/
def sign (d : Directive) (negative : Bool) : String :=
  if negative then "-" else if d.has '+' then "+" else if d.has ' ' then " " else ""

/-- The digits of a whole number, with as many zeros before them as are asked for. -/
def digits (d : Directive) (base n : Nat) : String :=
  let cs := if n = 0 && d.precision == some 0 then [] else Nat.toDigits base n
  String.ofList (List.replicate (d.precision.getD 0 - cs.length) '0' ++ cs)

/-- Prints a whole number with a sign. -/
def integer (d : Directive) (n : Int) : String :=
  d.pad d.precision.isNone (d.sign (n < 0)) (d.digits 10 n.natAbs)

/-- Prints a whole number without a sign; the letter says in what base. -/
def unsigned (d : Directive) (letter : Char) (n : Nat) : String :=
  let upper (s : String) : String := String.ofList (s.toList.map Char.toUpper)
  match letter with
  | 'o' =>
    let body := d.digits 8 n
    d.pad d.precision.isNone ""
      (if d.has '#' && !body.startsWith "0" then "0" ++ body else body)
  | 'x' => d.pad d.precision.isNone (if d.has '#' && n ≠ 0 then "0x" else "") (d.digits 16 n)
  | 'X' =>
    d.pad d.precision.isNone (if d.has '#' && n ≠ 0 then "0X" else "") (upper (d.digits 16 n))
  | _ => d.pad d.precision.isNone "" (d.digits 10 n)

/-- Prints a float; the letter says in what form. -/
def float (d : Directive) (letter : Char) (f : Float) : String :=
  let precision := d.precision.getD 6
  let body := match letter.toLower with
    | 'f' => Decimal.placed precision f
    | 'e' => Decimal.scientific precision f
    | _ => Decimal.general precision (d.has '#') f
  let body := if letter.isUpper then String.ofList (body.toList.map Char.toUpper) else body
  let isFinite := !f.isNaN && !f.isInf
  d.pad isFinite (d.sign (Decimal.isNegative f)) body

end Directive

end MutationTesting.Text
