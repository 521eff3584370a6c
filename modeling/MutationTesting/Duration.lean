import MutationTesting.Text.Blank
import MutationTesting.Text.Numeral

/-!
# Durations

A length of time in whole seconds and nanoseconds, and its written form: digits
followed by `ms`, `s`, `m`, `h` or nothing, which means seconds.
-/

namespace MutationTesting

/-- A length of time; `nanos` is less than a second. -/
structure Duration where
  secs : Nat
  nanos : Nat
  deriving DecidableEq, Repr

namespace Duration

def ofSeconds (n : Nat) : Duration := ⟨n, 0⟩

def ofMillis (n : Nat) : Duration := ⟨n / 1000, n % 1000 * 1000000⟩

/-- The whole milliseconds in a duration. -/
def toMillis (d : Duration) : Nat := d.secs * 1000 + d.nanos / 1000000

theorem toMillis_ofMillis (n : Nat) :
  (ofMillis n).toMillis = n
  := by
  simp only [toMillis, ofMillis]
  omega

def toNanos (d : Duration) : Nat := d.secs * 1000000000 + d.nanos

/-- The time from an earlier moment to this one; none if it is not earlier. -/
def since (d earlier : Duration) : Duration :=
  let nanos := d.toNanos - earlier.toNanos
  ⟨nanos / 1000000000, nanos % 1000000000⟩

def add (a b : Duration) : Duration :=
  let nanos := a.nanos + b.nanos
  ⟨a.secs + b.secs + nanos / 1000000000, nanos % 1000000000⟩

instance : Add Duration := ⟨add⟩

/-- Why a text is not the written form of a duration. -/
inductive Error where
  | noNumber (text : String)
  | unknownUnit (unit text : String)
  | tooLarge (text : String)
  deriving DecidableEq, Repr

/-- What is said of a text that is no duration. -/
def Error.message : Error → String
  | .noNumber text => s!"invalid duration '{text}' (expected e.g. 60s, 2m, 500ms)"
  | .unknownUnit unit text => s!"invalid duration unit '{unit}' in '{text}'"
  | .tooLarge text => s!"duration '{text}' is too large"

/-- The seconds in a unit of whole seconds. -/
def unitSeconds? : String → Option Nat
  | "" => some 1
  | "s" => some 1
  | "m" => some 60
  | "h" => some 3600
  | _ => none

/-- Reads a written duration; blanks around it do not count. -/
def parse (text : String) : Except Error Duration :=
  let trimmed := Text.trim text.toList
  let shown := String.ofList trimmed
  let unit := String.ofList (trimmed.dropWhile Text.isDigit)
  match Text.digits? (trimmed.takeWhile Text.isDigit) with
  | none => .error (.noNumber shown)
  | some value =>
    if unit = "ms" then .ok (ofMillis value)
    else match unitSeconds? unit with
      | none => .error (.unknownUnit unit shown)
      | some seconds =>
        if value * seconds ≤ Text.maxWord then .ok (ofSeconds (value * seconds))
        else .error (.tooLarge shown)

end Duration

end MutationTesting
