import MutationTesting.Shell.Rules
import MutationTesting.Text.Directive

/-!
# Values of rules

A value is a number or a text, or what was read and looks like a number, which is both.
`Value.format` prints values by a format.
-/

namespace MutationTesting.Shell.Rules

open Text (Regex Directive)

/-- A value, which is a number or a text as the use of it asks. -/
inductive Value where
  | number (f : Float)
  | text (s : String)
  /-- A text that was read and is a number. -/
  | numeric (s : String) (f : Float)
  | unset

def isSpace (c : Char) : Bool := Text.CharSet.space.contains c

/-- The number that a text starts with, or 0. -/
def leadingNumber (s : String) : Float :=
  match Decimal.float? (s.toList.dropWhile isSpace) with
  | some (f, _) => f
  | none => 0

/-- What was read: a number as well if it looks like one. -/
def Value.ofInput (s : String) : Value :=
  match Decimal.float? (s.toList.dropWhile isSpace) with
  | some (f, rest) => if rest.all isSpace then .numeric s f else .text s
  | none => .text s

/-- The whole number that a float is, if it is one that fits into 64 bits. -/
def whole? (f : Float) : Option Int :=
  if f.isNaN || f.isInf || f != f.floor || 9.0e18 < f.abs then none
  else if f < 0 then some (-((-f).toUInt64.toNat : Int)) else some f.toUInt64.toNat

/-- A float without what is after the point. -/
def truncated (f : Float) : Int :=
  if f.isNaN then 0
  else if 9.2e18 < f then 9223372036854775807
  else if f < -9.2e18 then -9223372036854775808
  else if f < 0 then -((-f).floor.toUInt64.toNat : Int) else f.floor.toUInt64.toNat

namespace Value

def toFloat : Value → Float
  | .number f | .numeric _ f => f
  | .text s => leadingNumber s
  | .unset => 0

def ofNat (n : Nat) : Value := .number n.toFloat

def ofBool (b : Bool) : Value := .number (if b then 1 else 0)

/-- Whether a value counts as true. -/
def isTrue : Value → Bool
  | .number f | .numeric _ f => f != 0
  | .text s => !s.isEmpty
  | .unset => false

def isNumber : Value → Bool
  | .text _ => false
  | _ => true

/-- Prints a number by a directive for floats such as `%.6g`. -/
def floatText (format : String) (f : Float) : String :=
  match format.toList with
  | '%' :: cs =>
    let (written, rest) := Directive.read cs
    let amount : Text.Amount → Int
      | .given n => n
      | .argument => 0
    let d := Directive.ofAmounts written.flags (amount written.width) (written.precision.map amount)
    match rest with
    | letter :: rest =>
      (if letter == 'd' || letter == 'i' then d.integer (truncated f) else d.float letter f)
        ++ String.ofList rest
    | [] => format
  | _ => format

/-- A value as a text; numbers that are not whole are printed by a format. -/
def toText (format : String) : Value → String
  | .number f =>
    match whole? f with
    | some n => toString n
    | none => floatText format f
  | .text s | .numeric s _ => s
  | .unset => ""

/-! ### Formats -/

/-- Prints values by a format.  The fuel bounds the number of characters. -/
def formatFrom (convert : String) : Nat → List Char → List Value → List String → List String
  | 0, _, _, out | _, [], _, out => out
  | fuel + 1, '%' :: '%' :: cs, args, out => formatFrom convert fuel cs args ("%" :: out)
  | fuel + 1, '%' :: cs, args, out =>
    let (written, rest) := Directive.read cs
    let take (a : Text.Amount) (args : List Value) : Int × List Value :=
      match a with
      | .given n => (n, args)
      | .argument => (truncated (args.headD .unset).toFloat, args.tail)
    let (width, args) := take written.width args
    let (precision, args) := match written.precision with
      | some a =>
        let (n, args) := take a args
        (some n, args)
      | none => (none, args)
    let d := Directive.ofAmounts written.flags width precision
    -- letters for the size of a number mean nothing
    match rest.dropWhile "hlL".toList.contains with
    | [] => String.ofList ('%' :: cs) :: out
    | letter :: rest =>
      let arg := args.headD .unset
      let next (text : String) : List String :=
        formatFrom convert fuel rest args.tail (text :: out)
      match letter with
      | 's' => next (d.text (arg.toText convert))
      | 'c' =>
        let text := match arg with
          | .number f => String.ofList [Char.ofNat ((truncated f).toNat % 256)]
          | arg => String.ofList ((arg.toText convert).toList.take 1)
        next (d.text text)
      | 'd' | 'i' => next (d.integer (truncated arg.toFloat))
      | 'o' | 'u' | 'x' | 'X' =>
        next (d.unsigned letter (Int.emod (truncated arg.toFloat) 18446744073709551616).toNat)
      | 'e' | 'E' | 'f' | 'F' | 'g' | 'G' => next (d.float letter arg.toFloat)
      | letter =>
        formatFrom convert fuel rest args
          (String.ofList ('%' :: cs.take (cs.length - rest.length - 1) ++ [letter]) :: out)
  | fuel + 1, c :: cs, args, out =>
    let plain := (c :: cs).takeWhile (· != '%')
    formatFrom convert fuel ((c :: cs).drop plain.length) args (String.ofList plain :: out)

/-- Prints values by a format. -/
def format (convert text : String) (args : List Value) : String :=
  String.join (formatFrom convert (text.length + 1) text.toList args []).reverse

/-- Whether a comparison holds of two values: of numbers, or else of texts. -/
def compare (convert : String) (k : Comparison) (a b : Value) : Bool :=
  if a.isNumber && b.isNumber then
    let x := a.toFloat
    let y := b.toFloat
    match k with
    | .less => x < y
    | .atMost => x ≤ y
    | .equal => x == y
    | .unequal => x != y
    | .greater => y < x
    | .atLeast => y ≤ x
  else
    let order := Ord.compare (a.toText convert).toList (b.toText convert).toList
    match k with
    | .less => order == .lt
    | .atMost => order != .gt
    | .equal => order == .eq
    | .unequal => order != .eq
    | .greater => order == .gt
    | .atLeast => order != .lt

end Value

/-! ### Parts of texts -/

/-- A text parted where a regular expression matches.  The fuel bounds the number of parts. -/
def splitByRegex (p : Regex.Program) (cs : List Char) : Nat → Nat → List String
  | 0, start => [String.ofList (cs.drop start)]
  | fuel + 1, start =>
    match Regex.search? p cs start with
    | none => [String.ofList (cs.drop start)]
    | some m =>
      if m.stop = m.start then
        if m.start + 1 < cs.length then
          String.ofList ((cs.drop start).take (m.start + 1 - start))
            :: splitByRegex p cs fuel (m.start + 1)
        else [String.ofList (cs.drop start)]
      else
        String.ofList ((cs.drop start).take (m.start - start)) :: splitByRegex p cs fuel m.stop

/-- The runs of characters that are no blanks. -/
def splitAtBlanks (cs : List Char) : List String :=
  let step := fun (acc : List (List Char) × List Char) (c : Char) =>
    if isSpace c then (if acc.2.isEmpty then acc.1 else acc.2 :: acc.1, []) else (acc.1, c :: acc.2)
  let (done, last) := cs.foldl step ([], [])
  ((if last.isEmpty then done else last :: done).reverse).map fun w => String.ofList w.reverse

/-- What stands for a match in what replaces it. -/
def replacementText (text found : List Char) : List Char :=
  match text with
  | '\\' :: '&' :: rest => '&' :: replacementText rest found
  | '\\' :: '\\' :: rest => '\\' :: replacementText rest found
  | '&' :: rest => found ++ replacementText rest found
  | c :: rest => c :: replacementText rest found
  | [] => []

/-- Replaces the first match, or all, from a place on.  Gives the text from there on and the
number of matches.  The fuel bounds that number. -/
def replaceMatches (p : Regex.Program) (text : List Char) (all : Bool) (cs : List Char) :
    Nat → Nat → Option Nat → List Char × Nat
  | 0, start, _ => (cs.drop start, 0)
  | fuel + 1, start, previous =>
    match Regex.search? p cs start with
    | none => (cs.drop start, 0)
    | some m =>
      let between := (cs.drop start).take (m.start - start)
      let found := (cs.drop m.start).take (m.stop - m.start)
      if m.stop = m.start then
        let isNew := previous != some m.start
        let put := if isNew then replacementText text found else []
        let count := if isNew then 1 else 0
        match cs.drop m.start with
        | [] => (between ++ put, count)
        | c :: rest =>
          if isNew && !all then (between ++ put ++ c :: rest, count)
          else
            let (after, n) := replaceMatches p text all cs fuel (m.start + 1) none
            (between ++ put ++ c :: after, n + count)
      else
        let put := replacementText text found
        if all then
          let (after, n) := replaceMatches p text all cs fuel m.stop (some m.stop)
          (between ++ put ++ after, n + 1)
        else (between ++ put ++ cs.drop m.stop, 1)

end MutationTesting.Shell.Rules
