import MutationTesting.Shell.Arithmetic
import MutationTesting.Text.Directive

/-!
# Printing of the shell

`echo` prints words and `Format.print` prints by a format.  Both know escapes; in a word `\c`
ends all printing, and an escape that is none stands for its backslash.
-/

namespace MutationTesting.Shell.Format

open Text (Directive)

/-- The number of up to three octal digits, and what follows them. -/
def octal (cs : List Char) : Nat × List Char :=
  let digits := (cs.take 3).takeWhile fun c => '0' ≤ c && c ≤ '7'
  (digits.foldl (fun n c => 8 * n + (c.toNat - '0'.toNat)) 0, cs.drop digits.length)

/-- The character that a letter after a backslash means. -/
def letter? : Char → Option Char
  | 'a' => some '\x07'
  | 'b' => some '\x08'
  | 't' => some '\t'
  | 'n' => some '\n'
  | 'v' => some '\x0b'
  | 'f' => some '\x0c'
  | 'r' => some '\r'
  | '\\' => some '\\'
  | _ => none

/-- The character of an escape after its backslash, and what follows it. -/
def escape (cs : List Char) : Char × List Char :=
  match cs with
  | [] => ('\\', [])
  | c :: rest =>
    if '0' ≤ c && c ≤ '7' then
      let (n, rest) := octal cs
      (Char.ofNat (n % 256), rest)
    else match letter? c with
      | some e => (e, rest)
      | none => ('\\', cs)

/-- A text with its escapes taken for what they mean, in reverse order, and whether one ended
all printing.  An octal number may have a further zero before it. -/
def unescape (done : List Char) : Nat → List Char → List Char × Bool
  | 0, _ | _, [] => (done, false)
  | _ + 1, '\\' :: 'c' :: _ => (done, true)
  | fuel + 1, '\\' :: cs =>
    let cs := match cs with
      | '0' :: d :: rest => if '0' ≤ d && d ≤ '7' then d :: rest else cs
      | cs => cs
    let (c, rest) := escape cs
    unescape (c :: done) fuel rest
  | fuel + 1, c :: cs => unescape (c :: done) fuel cs

/-- A text with its escapes taken for what they mean, and whether one ended all printing. -/
def unescaped (text : String) : String × Bool :=
  if text.toList.contains '\\' then
    let (cs, stop) := unescape [] text.length text.toList
    (String.ofList cs.reverse, stop)
  else (text, false)

/-- What words are printed as, with blanks between them, and a newline at the end. -/
def words (newline : Bool) : List String → String
  | [] => if newline then "\n" else ""
  | [word] =>
    let (text, stop) := unescaped word
    if newline && !stop then text ++ "\n" else text
  | word :: rest =>
    let (text, stop) := unescaped word
    if stop then text else text ++ " " ++ words newline rest

/-- The words of `echo`, with their escapes, on one line. -/
def echo : List String → String
  | "-n" :: rest => words false rest
  | all => words true all

/-! ### Formats -/

/-- What printing by a format has come to. -/
structure Progress where
  args : List String
  /-- What was printed, the last first. -/
  printed : List String := []
  /-- Complaints about arguments, the last first. -/
  complaints : List String := []
  /-- A complaint that ended all printing. -/
  flaw : Option String := none
  stopped : Bool := false

namespace Progress

def add (p : Progress) (text : String) : Progress := { p with printed := text :: p.printed }

/-- Takes an argument off. -/
def next (p : Progress) : Option String × Progress := (p.args.head?, { p with args := p.args.tail })

def complain (p : Progress) (text : String) : Progress :=
  { p with complaints := text :: p.complaints }

/-- Complains if something is left of an argument for a number. -/
def check (p : Progress) (arg : String) (rest : Option (List Char)) : Progress :=
  match rest with
  | some [] => p
  | some _ => p.complain s!"{arg}: not completely converted"
  | none => if arg.isEmpty then p else p.complain s!"{arg}: expected numeric value"

/-- Takes an argument off as a whole number. -/
def integer (p : Progress) (signed : Bool) : Int × Progress :=
  match p.next with
  | (none, p) => (0, p)
  | (some arg, p) =>
    match arg.toList with
    | '"' :: cs | '\x27' :: cs => ((cs.head?.map fun c => (c.toNat : Int)).getD 0, p)
    | cs =>
      match Arithmetic.integer? true cs with
      | none => (0, p.check arg none)
      | some (n, rest) =>
        let low := if signed then Arithmetic.minInt else -18446744073709551615
        let high := if signed then Arithmetic.maxInt else 18446744073709551615
        if n < low || high < n then
          (if signed then max low (min n high) else high,
            p.complain s!"{arg}: Numerical result out of range")
        else (n, p.check arg (some rest))

/-- Takes an argument off as a float. -/
def float (p : Progress) : Float × Progress :=
  match p.next with
  | (none, p) => (0, p)
  | (some arg, p) =>
    match arg.toList with
    | '"' :: cs | '\x27' :: cs => (((cs.head?.map Char.toNat).getD 0).toFloat, p)
    | cs =>
      match Decimal.float? (cs.dropWhile Text.CharSet.space.contains) with
      | none => (0, p.check arg none)
      | some (f, rest) => (f, p.check arg (some rest))

/-- Takes an amount of a directive off, if an argument gives it. -/
def amount (p : Progress) : Text.Amount → Int × Progress
  | .given n => (n, p)
  | .argument => p.integer true

end Progress

/-- Prints by a directive with a letter. -/
def convert (p : Progress) (d : Directive) (letter : Char) (written : String) : Progress :=
  match letter with
  | 's' =>
    let (arg, p) := p.next
    p.add (d.text (arg.getD ""))
  | 'b' =>
    let (arg, p) := p.next
    let (text, stop) := unescaped (arg.getD "")
    { p.add (d.text text) with stopped := stop }
  | 'c' =>
    let (arg, p) := p.next
    p.add ({ d with precision := none }.text (String.ofList [(arg.getD "").toList.headD '\x00']))
  | 'd' | 'i' =>
    let (n, p) := p.integer true
    p.add (d.integer n)
  | 'o' | 'u' | 'x' | 'X' =>
    let (n, p) := p.integer false
    p.add (d.unsigned letter (Int.emod n 18446744073709551616).toNat)
  | 'e' | 'E' | 'f' | 'F' | 'g' | 'G' =>
    let (f, p) := p.float
    p.add (d.float letter f)
  | _ => { p with flaw := some s!"{written}: invalid directive" }

/-- Prints once by a format.  The fuel bounds the number of its characters. -/
def printOnce : Nat → List Char → Progress → Progress
  | 0, _, p | _, [], p => p
  | fuel + 1, '\\' :: cs, p =>
    let (c, rest) := escape cs
    printOnce fuel rest (p.add (String.ofList [c]))
  | fuel + 1, '%' :: '%' :: cs, p => printOnce fuel cs (p.add "%")
  | fuel + 1, '%' :: cs, p =>
    let (written, rest) := Directive.read cs
    let (width, p) := p.amount written.width
    let (precision, p) := match written.precision with
      | none => (none, p)
      | some amount =>
        let (n, p) := p.amount amount
        (some n, p)
    match rest with
    | [] => { p with flaw := some "missing format character" }
    | letter :: rest =>
      let text := String.ofList ('%' :: cs.take (cs.length - rest.length))
      let p := convert p (.ofAmounts written.flags width precision) letter text
      if p.stopped || p.flaw.isSome then p else printOnce fuel rest p
  | fuel + 1, c :: cs, p =>
    let plain := (c :: cs).takeWhile fun c => c != '\\' && c != '%'
    printOnce fuel ((c :: cs).drop plain.length) (p.add (String.ofList plain))

/-- Prints by a format as often as there are arguments left. -/
def printAll (format : List Char) : Nat → Progress → Progress
  | 0, p => p
  | fuel + 1, p =>
    let after := printOnce (format.length + 1) format p
    if after.stopped || after.flaw.isSome || after.args.isEmpty
      || after.args.length = p.args.length then after
    else printAll format fuel after

/-- Prints by a format. -/
def print (format : String) (args : List String) : Progress :=
  printAll format.toList (args.length + 1) { args := args }

def Progress.text (p : Progress) : String := String.join p.printed.reverse

end MutationTesting.Shell.Format
