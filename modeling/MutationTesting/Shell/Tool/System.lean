import MutationTesting.Shell.Format
import MutationTesting.Shell.Condition
import MutationTesting.Shell.Tool.Stream

/-!
# The system around

Small tools that say something about the system and the call, or only have a status: `true`,
`pwd`, `printenv`, `uname` and their like.  The programs `echo`, `printf` and `test` are not
those of the shell but tools of the same names.
-/

namespace MutationTesting.Shell

/-- Ends at once with a status. -/
def constant (status : Nat) : Tool := fun c => c.ends status

/-- Prints always the same. -/
def alwaysPrints (text : String) : Tool := fun c => c.prints text

/-- Prints the current directory. -/
def pwd : Tool := fun c =>
  c.prints (Text.encode ("/" ++ "/".intercalate c.disk.home) ++ "\n")

/-- The program `echo`; its options stand before all words. -/
def echo : Tool := fun c =>
  let isOption (word : String) : Bool :=
    match word.toList with
    | '-' :: d :: ds => (d :: ds).all "neE".toList.contains
    | _ => false
  let options := (c.args.takeWhile isOption).flatMap String.toList
  let words := c.args.dropWhile isOption
  let escapes := options.foldl
    (fun on d => if d == 'e' then true else if d == 'E' then false else on) false
  let newline := !options.contains 'n'
  c.prints (if escapes then Format.words newline words
    else " ".intercalate words ++ if newline then "\n" else "")

/-- Prints a format with its arguments. -/
def printf : Tool := fun c =>
  match c.args with
  | [] => c.misused 1 "missing operand"
  | format :: args =>
    let p := Format.print format args
    let complaints := p.complaints.reverse.map fun text =>
      if text.endsWith ": not completely converted" then
        c.message (text.replace ": not completely converted" ": value not completely converted")
      else match (text.splitOn ": expected numeric value") with
        | [arg, ""] => c.message s!"'{arg}': expected a numeric value"
        | _ => c.message text
    let flaw := match p.flaw with
      | some text =>
        c.message (text.replace ": invalid directive" ": invalid conversion specification")
      | none => ""
    let err := String.join complaints ++ flaw
    { disk := c.disk, out := p.text, err := err, status := if err.isEmpty then 0 else 1 }

/-- Asks a condition. -/
def testTool : Tool := fun c =>
  let result := if c.name.endsWith "[" then Condition.evaluateBracket c.disk c.args
    else Condition.evaluate c.disk c.args
  match result with
  | .ok true => c.ends 0
  | .ok false => c.ends 1
  | .error flaw =>
    c.fails 2 (match flaw with
      | .noBracket => "missing ']'"
      | .unexpected word => s!"'{word}': unexpected operator"
      | .noArgument op => s!"missing argument after '{op}'"
      | .unclosed => "')' expected"
      | .noNumber word => s!"invalid integer '{word}'")

/-- Prints the variables of the environment. -/
def environmentText (environment : List (String × String)) : String :=
  unlines (environment.map fun (name, value) => name ++ "=" ++ value)

/-- Prints variables of the environment. -/
def printenv : Tool := fun c =>
  if c.args.isEmpty then c.prints (environmentText c.environment)
  else
    let values := c.args.map fun name => c.environment.lookup name
    { disk := c.disk, out := unlines (values.filterMap fun v => v)
      status := if values.all Option.isSome then 0 else 1 }

/-- Prints a line without an end; so much of it as can be of use. -/
def yes : Tool := fun c =>
  let line := (if c.args.isEmpty then "y" else " ".intercalate c.args) ++ "\n"
  { disk := c.disk, out := String.join (List.replicate (200000 / line.length + 1) line)
    status := 141 }

/-- Prints what the machine is. -/
def uname : Tool := fun c =>
  c.prints (if c.args.contains "-m" then "x86_64\n" else "Linux\n")

/-- Prints who runs the script. -/
def whoami : Tool := alwaysPrints "root\n"

/-- The number of the user, and other facts about it. -/
def idTool : Tool := fun c =>
  c.prints (if c.args.any fun arg => arg == "-un" || arg == "-gn" || arg == "-nu" then "root\n"
    else if c.args.isEmpty then "uid=0(root) gid=0(root) groups=0(root)\n" else "0\n")

/-! ### Checksums and dumps -/

/-- The remainder of a byte, shifted to the top of 32 bits, by the polynomial of `cksum`. -/
def crcStep (crc : UInt32) (b : UInt32) : UInt32 :=
  let x := crc ^^^ (b <<< 24)
  (List.range 8).foldl (fun (x : UInt32) _ =>
    if x &&& 0x80000000 == 0 then x <<< 1 else (x <<< 1) ^^^ 0x04C11DB7) x

/-- The bytes of a length, the lowest first, without zeros at the end. -/
def lengthBytes : Nat → Nat → List UInt32
  | 0, _ => []
  | fuel + 1, n => if n = 0 then [] else (n % 256).toUInt32 :: lengthBytes fuel (n / 256)

/-- The cyclic redundancy check of a text and its length. -/
def checksum (text : String) : Nat :=
  let bytes := text.toList.map fun ch => ch.toNat.toUInt32
  let crc := (bytes ++ lengthBytes 8 text.length).foldl crcStep 0
  (crc ^^^ 0xFFFFFFFF).toNat

/-- Prints the check sum and the length of files. -/
def cksum : Tool := fun c =>
  c.withOptions { plain := "" } 1 fun o =>
    let (good, err) := goodSources c (c.sources o.operands 0) plainComplaint
    let rows := good.map fun (name, text) =>
      s!"{checksum text} {text.length}" ++ (if o.operands.isEmpty then "" else " " ++ name) ++ "\n"
    { disk := c.disk, out := String.join rows, err := err, appetite := appetiteFor o.operands
      status := if err.isEmpty then 0 else 1 }

/-- A byte as `od` shows it. -/
def dumped (form : Char) (ch : Char) : String :=
  let n := ch.toNat
  match form with
  | 'c' =>
    let named := [(0, "\\0"), (7, "\\a"), (8, "\\b"), (9, "\\t"), (10, "\\n"), (11, "\\v"),
      (12, "\\f"), (13, "\\r")].lookup n
    match named with
    | some text => padLeft 4 ' ' text
    | none =>
      if 32 ≤ n && n < 127 then padLeft 4 ' ' (String.ofList [ch])
      else " " ++ padLeft 3 '0' (String.ofList (Nat.toDigits 8 n))
  | 'x' => " " ++ padLeft 2 '0' (String.ofList (Nat.toDigits 16 n))
  | 'u' | 'd' => " " ++ padLeft 3 ' ' (toString n)
  | _ => " " ++ padLeft 3 '0' (String.ofList (Nat.toDigits 8 n))

/-- Rows of so many elements; the fuel bounds their number. -/
def inRows {α : Type} (width : Nat) : Nat → List α → List (List α)
  | 0, _ | _, [] => []
  | fuel + 1, xs => xs.take width :: inRows width fuel (xs.drop width)

/-- Prints the bytes of files. -/
def od : Tool := fun c =>
  c.withOptions { plain := "cbxdov", valued := "AtNjw" } 1 fun o =>
    let (good, err) := goodSources c (c.sources o.operands 0) plainComplaint
    let all := (String.join (good.map (·.2))).toList
    let natOf (letter : Char) : Option Nat := (o.value? letter).bind fun s => Text.digits? s.toList
    let all := (all.drop ((natOf 'j').getD 0)).take ((natOf 'N').getD all.length)
    let form := if o.has 'c' then 'c' else if o.has 'b' then 'o'
      else match (o.value? 't').map String.toList with
        | some ('x' :: _) => 'x'
        | some ('c' :: _) => 'c'
        | some ('u' :: _) => 'u'
        | some ('d' :: _) => 'd'
        | some _ => 'o'
        | none => 'w'
    let address (n : Nat) : String :=
      match o.value? 'A' with
      | some "n" => ""
      | some "d" => padLeft 7 '0' (toString n)
      | some "x" => padLeft 6 '0' (String.ofList (Nat.toDigits 16 n))
      | _ => padLeft 7 '0' (String.ofList (Nat.toDigits 8 n))
    let word (pair : List Char) : String :=
      let n := (pair.headD '\x00').toNat + 256 * ((pair.drop 1).headD '\x00').toNat
      " " ++ padLeft 6 '0' (String.ofList (Nat.toDigits 8 n))
    let body (row : List Char) : String :=
      if form == 'w' then String.join ((inRows 2 16 row).map word)
      else String.join (row.map (dumped form))
    let rows := (inRows 16 (all.length + 1) all).zipIdx.map fun (row, i) =>
      address (16 * i) ++ body row ++ "\n"
    let last := if o.value? 'A' = some "n" then "" else address all.length ++ "\n"
    { disk := c.disk, out := String.join rows ++ last, err := err
      appetite := appetiteFor o.operands, status := if err.isEmpty then 0 else 1 }

end MutationTesting.Shell
