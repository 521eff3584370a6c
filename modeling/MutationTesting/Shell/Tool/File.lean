import MutationTesting.Shell.Tool.Stream

/-!
# Files and directories of tools

Tools that make, copy, move and take away files and directories, and `ls`, which lists them.
-/

namespace MutationTesting.Shell

/-- What a run over some paths has come to. -/
structure PathRun where
  disk : Disk
  out : String := ""
  err : String := ""

namespace PathRun

def print (t : PathRun) (text : String) : PathRun := { t with out := t.out ++ text ++ "\n" }

def complain (t : PathRun) (c : ToolCall) (text : String) : PathRun :=
  { t with err := t.err ++ c.message text }

def result (t : PathRun) (status : Nat) : ToolResult :=
  { disk := t.disk, out := t.out, err := t.err, status := if t.err.isEmpty then 0 else status }

end PathRun

/-- Does something for each of some paths. -/
def forPaths (c : ToolCall) (paths : List String) (status : Nat)
    (act : PathRun → String → PathRun) : ToolResult :=
  (paths.foldl act { disk := c.disk }).result status

/-- The location of what is at a path. -/
def locationOf? (d : Disk) (path : String) : Option Location :=
  (d.find (Text.decode path)).toOption.map (·.1)

def isDirectoryAt (d : Disk) (path : String) : Bool := fileKind? d path == some .directory

/-- The last name of a path, whatever it is. -/
def lastName (path : String) : String :=
  String.ofList ((withoutSlashes path).toList.reverse.takeWhile (· != '/')).reverse

/-- A path with a name added to it. -/
def pathWithin (directory name : String) : String :=
  if directory.endsWith "/" then directory ++ name else directory ++ "/" ++ name

/-! ### Making and taking away -/

/-- Removes files, and directories with all below them if asked to. -/
def rm : Tool := fun c =>
  let table : OptionTable := { plain := "rRfidvI", long := [
    ("recursive", 'r'), ("force", 'f'), ("verbose", 'v'), ("dir", 'd'), ("interactive", 'i'),
    ("one-file-system", 'I'), ("preserve-root", 'I')] }
  c.withOptions table 1 fun o =>
    let deep := o.has 'r' || o.has 'R'
    if o.operands.isEmpty && !o.has 'f' then c.misused 1 "missing operand"
    else forPaths c o.operands 1 fun t path =>
      let path' := Text.decode path
      let say (t : PathRun) (what : String) : PathRun := if o.has 'v' then t.print what else t
      if deep && [".", ".."].contains (lastName path) then
        t.complain c s!"refusing to remove '.' or '..' directory: skipping '{path}'"
      else match t.disk.find path' with
        | .error .notFound =>
          if o.has 'f' then t
          else t.complain c s!"cannot remove '{path}': No such file or directory"
        | .error e => if o.has 'f' && e.isAbsence then t
          else t.complain c s!"cannot remove '{path}': {e.reason}"
        | .ok (location, .directory) =>
          if deep || (o.has 'd' && (t.disk.namesIn location).isEmpty) then
            say { t with disk := t.disk.eraseTree location } s!"removed directory '{path}'"
          else t.complain c s!"cannot remove '{path}': Is a directory"
        | .ok (location, .file _) =>
          say { t with disk := t.disk.erase location } s!"removed '{path}'"

/-- Removes directories that are empty. -/
def rmdir : Tool := fun c =>
  c.withOptions { plain := "pv", long := [("parents", 'p'), ("verbose", 'v')] } 1 fun o =>
    if o.operands.isEmpty then c.misused 1 "missing operand"
    else
      let remove (t : PathRun) (path : String) : PathRun :=
        match t.disk.find (Text.decode path) with
        | .error e => t.complain c s!"failed to remove '{path}': {e.reason}"
        | .ok (_, .file _) => t.complain c s!"failed to remove '{path}': Not a directory"
        | .ok (location, .directory) =>
          if (t.disk.namesIn location).isEmpty then { t with disk := t.disk.erase location }
          else t.complain c s!"failed to remove '{path}': Directory not empty"
      let rec chain : Nat → String → List String
        | 0, path => [path]
        | n + 1, path =>
          match Path.parent? path with
          | some parent => if parent.isEmpty || parent = "/" then [path] else path :: chain n parent
          | none => [path]
      forPaths c (o.operands.flatMap fun path =>
        if o.has 'p' then chain path.length path else [path]) 1 remove

/-- Makes directories. -/
def mkdir : Tool := fun c =>
  let table : OptionTable := { plain := "pv", valued := "m", long := [
    ("parents", 'p'), ("verbose", 'v'), ("mode", 'm')] }
  c.withOptions table 1 fun o =>
    if o.operands.isEmpty then c.misused 1 "missing operand"
    else forPaths c o.operands 1 fun t path =>
      let make := if o.has 'p' then Disk.makeDirectories else Disk.makeDirectory
      if isDirectoryAt t.disk path && o.has 'p' then t
      else if (fileKind? t.disk path).isSome then
        t.complain c s!"cannot create directory '{path}': File exists"
      else match make t.disk (Text.decode path) with
        | .ok d =>
          let t := { t with disk := d }
          if o.has 'v' then t.print s!"{c.name}: created directory '{path}'" else t
        | .error e => t.complain c s!"cannot create directory '{path}': {e.reason}"

/-- Makes files that are not there. -/
def touch : Tool := fun c =>
  let table : OptionTable := { plain := "acmfh", valued := "drt", long := [
    ("no-create", 'c'), ("date", 'd'), ("reference", 'r')] }
  c.withOptions table 1 fun o =>
    if o.operands.isEmpty then c.misused 1 "missing file operand"
    else forPaths c o.operands 1 fun t path =>
      if (fileKind? t.disk path).isSome || o.has 'c' then t
      else match Process.writeFile t.disk path "" with
        | .ok d => { t with disk := d }
        | .error .isADirectory =>
          t.complain c s!"setting times of '{path}': No such file or directory"
        | .error e => t.complain c s!"cannot touch '{path}': {e.reason}"

/-- Whether a mode of `chmod` lets a file be run, takes that away, or leaves it as it is. -/
def programMode? (mode : String) : Option Bool :=
  let cs := mode.toList
  if cs.all Text.isDigit then
    some (cs.any fun ch => (ch.toNat - '0'.toNat) % 2 = 1)
  else
    let rest := cs.dropWhile "ugoa".toList.contains
    match rest with
    | '+' :: letters => if letters.contains 'x' then some true else none
    | '-' :: letters => if letters.contains 'x' then some false else none
    | '=' :: letters => some (letters.contains 'x')
    | _ => none

/-- Sets whether files may be run. -/
def chmod : Tool := fun c =>
  match c.args.filter fun arg => arg != "-R" && arg != "-v" && arg != "-f" with
  | [] => c.misused 1 "missing operand"
  | [mode] => c.misused 1 s!"missing operand after '{mode}'"
  | mode :: paths =>
    let isMode := !mode.isEmpty && mode.toList.all "0123456789ugoa+-=rwxXst,".toList.contains
    if !isMode then c.misused 1 s!"invalid mode: '{mode}'"
    else forPaths c paths 1 fun t path =>
      match t.disk.find (Text.decode path), programMode? mode with
      | .ok (location, .file _), some on => { t with disk := t.disk.setProgram location on }
      | .ok _, _ => t
      | .error e, _ => t.complain c s!"cannot access '{path}': {e.reason}"

/-! ### Copying and moving -/

/-- Copies what is at a location, with all that is in it, to another one. -/
def copyTree (d : Disk) (source target : Location) : Disk :=
  (d.entries.filter fun (other, _) => source.isPrefixOf other).foldl (fun d (other, entry) =>
    let place := target ++ other.drop source.length
    match d.lookup? place, entry with
    | some .directory, .directory => d
    | _, _ => (d.put place entry).setProgram place (d.isProgram other)) d

/-- The sources and the target of a call, and whether the target is a directory to put the
sources into. -/
def sourcesAndTarget (c : ToolCall) (o : Options) : Except String (List String × String × Bool) :=
  let missing : List String → Except String (List String × String × Bool)
    | [] => .error s!"missing file operand{c.hint}"
    | a :: _ => .error s!"missing destination file operand after '{a}'{c.hint}"
  match o.value? 't' with
  | some directory =>
    if o.operands.isEmpty then missing [] else .ok (o.operands, directory, true)
  | none =>
    match o.operands.reverse with
    | target :: source :: rest =>
      let sources := (source :: rest).reverse
      if isDirectoryAt c.disk target && !o.has 'T' then .ok (sources, target, true)
      else if rest.isEmpty then .ok (sources, target, false)
      else match fileKind? c.disk target with
        | some _ => .error s!"target '{target}': Not a directory"
        | none => .error s!"target '{target}': No such file or directory"
    | few => missing few

/-- Copies files and directories. -/
def cp : Tool := fun c =>
  let table : OptionTable := { plain := "rRafpnviuTdLPH", valued := "t", long := [
    ("recursive", 'r'), ("archive", 'a'), ("force", 'f'), ("no-clobber", 'n'), ("verbose", 'v'),
    ("target-directory", 't'), ("no-target-directory", 'T'), ("preserve", 'p')] }
  c.withOptions table 1 fun o =>
    let deep := o.has 'r' || o.has 'R' || o.has 'a'
    match sourcesAndTarget c o with
    | .error text => c.fails 1 text
    | .ok (sources, target, into) => forPaths c sources 1 fun t source =>
      let place := if into then pathWithin target (lastName source) else target
      let say (t : PathRun) : PathRun :=
        if o.has 'v' then t.print s!"'{source}' -> '{place}'" else t
      match t.disk.find (Text.decode source) with
      | .error e =>
        if source = "/dev/null" then
          match Process.writeFile t.disk place "" with
          | .ok d => { t with disk := d }
          | .error e => t.complain c s!"cannot create regular file '{place}': {e.reason}"
        else t.complain c s!"cannot stat '{source}': {e.reason}"
      | .ok (location, .directory) =>
        if !deep then t.complain c s!"-r not specified; omitting directory '{source}'"
        else match t.disk.locate (Text.decode place) with
          | .error e => t.complain c s!"cannot create directory '{place}': {e.reason}"
          | .ok (.directory other) | .ok (.name other _) =>
            if location.isPrefixOf other then
              t.complain c s!"cannot copy a directory, '{source}', into itself, '{place}'"
            else match t.disk.lookup? other with
              | some (.file _) =>
                t.complain c s!"cannot overwrite non-directory '{place}' with directory '{source}'"
              | _ => say { t with disk := copyTree t.disk location other }
      | .ok (location, .file _) =>
        if locationOf? t.disk place == some location then
          t.complain c s!"'{source}' and '{place}' are the same file"
        else if isDirectoryAt t.disk place then
          t.complain c s!"cannot overwrite directory '{place}' with non-directory"
        else if o.has 'n' && (fileKind? t.disk place).isSome then t
        else match t.disk.copy (Text.decode source) (Text.decode place) with
          | .ok d => say { t with disk := d }
          | .error .isADirectory =>
            t.complain c s!"cannot create regular file '{place}': Not a directory"
          | .error e => t.complain c s!"cannot create regular file '{place}': {e.reason}"

/-- Moves files and directories. -/
def mv : Tool := fun c =>
  let table : OptionTable := { plain := "fnvuiT", valued := "t", long := [
    ("force", 'f'), ("no-clobber", 'n'), ("verbose", 'v'), ("target-directory", 't'),
    ("no-target-directory", 'T')] }
  c.withOptions table 1 fun o =>
    match sourcesAndTarget c o with
    | .error text => c.fails 1 text
    | .ok (sources, target, into) => forPaths c sources 1 fun t source =>
      let place := if into then pathWithin target (lastName source) else target
      match t.disk.find (Text.decode source), t.disk.locate (Text.decode place) with
      | .error e, _ => t.complain c s!"cannot stat '{source}': {e.reason}"
      | .ok _, .error e => t.complain c s!"cannot move '{source}' to '{place}': {e.reason}"
      | .ok (location, entry), .ok (.directory other)
      | .ok (location, entry), .ok (.name other _) =>
        if location == other then t.complain c s!"'{source}' and '{place}' are the same file"
        else if entry == .directory && location.isPrefixOf other then
          t.complain c s!"cannot move '{source}' to a subdirectory of itself, '{place}'"
        else match t.disk.lookup? other, entry with
          | some .directory, .file _ =>
            t.complain c s!"cannot overwrite directory '{place}' with non-directory"
          | some (.file _), .directory =>
            t.complain c s!"cannot overwrite non-directory '{place}' with directory '{source}'"
          | there, _ =>
            if there.isSome && o.has 'n' then t
            else if there == some .directory && !(t.disk.namesIn other).isEmpty then
              t.complain c s!"cannot move '{source}' to '{place}': Directory not empty"
            else
              let t := { t with disk := (copyTree t.disk location other).eraseTree location }
              if o.has 'v' then t.print s!"renamed '{source}' -> '{place}'" else t

/-- Makes a file known under another name; the two do not stay the same. -/
def ln : Tool := fun c =>
  let table : OptionTable := { plain := "sfnvTr", long := [("symbolic", 's'), ("force", 'f')] }
  c.withOptions table 1 fun o =>
    match o.operands with
    | [] => c.misused 1 "missing file operand"
    | source :: rest =>
      let target := rest.headD (lastName source)
      let place :=
        if isDirectoryAt c.disk target then pathWithin target (lastName source) else target
      let kind := if o.has 's' then "symbolic link" else "hard link"
      let failed := if o.has 's' then s!"failed to create {kind} '{place}'"
        else s!"failed to create {kind} '{place}' => '{source}'"
      if (fileKind? c.disk place).isSome && !o.has 'f' then c.fails 1 s!"{failed}: File exists"
      else match c.disk.find (Text.decode source) with
        | .error e => if o.has 's' then c.ends 0
          else c.fails 1 s!"failed to access '{source}': {e.reason}"
        | .ok (_, .directory) => if o.has 's' then c.ends 0
          else c.fails 1 s!"{source}: hard link not allowed for directory"
        | .ok (_, .file _) =>
          match c.disk.copy (Text.decode source) (Text.decode place) with
          | .ok d => { disk := d }
          | .error e => c.fails 1 s!"{failed}: {e.reason}"

/-! ### Listing -/

/-- The names in a directory that are shown, in order. -/
def shownNames (d : Disk) (o : Options) (location : Location) : List String :=
  let names := (d.namesIn location).map Text.encode
  let shown := names.filter fun name => o.has 'a' || o.has 'A' || !name.startsWith "."
  let all := if o.has 'a' then "." :: ".." :: shown else shown
  let sizeOf (name : String) : Nat :=
    match d.lookup? (location ++ [Text.decode name]) with
    | some (.file content) => content.bytes.length
    | _ => 4096
  let sorted := all.mergeSort fun a b =>
    if o.has 'S' && sizeOf a ≠ sizeOf b then sizeOf b < sizeOf a
    else (Path.compareNames a b).isLE
  if o.has 'r' then sorted.reverse else sorted

/-- A name with a sign for its kind. -/
def markedName (d : Disk) (o : Options) (path name : String) : String :=
  match fileKind? d path with
  | some .directory => if o.has 'F' || o.has 'p' then name ++ "/" else name
  | some .program => if o.has 'F' then name ++ "*" else name
  | _ => name

/-- Lists directories and, if that is asked for, those below them.  The fuel bounds the depth. -/
def listDirectory (d : Disk) (o : Options) : Nat → String → String
  | 0, _ => ""
  | fuel + 1, path =>
    match d.find (Text.decode path) with
    | .ok (location, .directory) =>
      let names := shownNames d o location
      let rows := unlines (names.map fun name => markedName d o (pathWithin path name) name)
      let below := if o.has 'R' then
          String.join (names.map fun name =>
            let inner := pathWithin path name
            if isDirectoryAt d inner && name != "." && name != ".." then
              s!"\n{inner}:\n" ++ listDirectory d o fuel inner
            else "")
        else ""
      rows ++ below
    | _ => ""

/-- Lists the names in directories. -/
def ls : Tool := fun c =>
  let table : OptionTable := { plain := "aA1dRrFpltSCmxnsihGgoUfLq", valued := "Iw", long := [
    ("all", 'a'), ("almost-all", 'A'), ("directory", 'd'), ("recursive", 'R'), ("reverse", 'r'),
    ("classify", 'F')] }
  c.withOptions table 2 fun o =>
    let paths := if o.operands.isEmpty then ["."] else o.operands.mergeSort fun a b =>
      (Path.compareNames a b).isLE
    let err := String.join (paths.map fun path =>
      match c.disk.find (Text.decode path), fileKind? c.disk path with
      | .error e, none => c.message s!"cannot access '{path}': {e.reason}"
      | _, _ => "")
    let there := paths.filter fun path => (fileKind? c.disk path).isSome
    let plain := there.filter fun path => o.has 'd' || !isDirectoryAt c.disk path
    let directories := there.filter fun path => !(o.has 'd') && isDirectoryAt c.disk path
    let rows := unlines (plain.map fun path => markedName c.disk o path path)
    let isTitled := 1 < paths.length || o.has 'R'
    let lists := directories.map fun path =>
      (if isTitled then s!"{path}:\n" else "") ++ listDirectory c.disk o 50 path
    let parts := (if rows.isEmpty then [] else [rows]) ++ lists
    { disk := c.disk, out := "\n".intercalate parts, err := err
      status := if err.isEmpty then 0 else 2 }

/-! ### Names -/

/-- The last name of a path. -/
def basenameOf (path : String) : String :=
  if path.isEmpty then "" else if withoutSlashes path = "/" then "/" else lastName path

/-- Prints the last names of paths, without a suffix if asked to. -/
def basename : Tool := fun c =>
  let table : OptionTable := { plain := "az", valued := "s", strict := true, long := [
    ("multiple", 'a'), ("suffix", 's')] }
  c.withOptions table 1 fun o =>
    let trimmed (suffix name : String) : String :=
      if !suffix.isEmpty && name != suffix && name.endsWith suffix then
        String.ofList (name.toList.take (name.length - suffix.length))
      else name
    match o.operands with
    | [] => c.misused 1 "missing operand"
    | paths =>
      if o.has 'a' || o.has 's' then
        c.prints (unlines (paths.map fun path =>
          trimmed ((o.value? 's').getD "") (basenameOf path)))
      else match paths with
        | [path] => c.prints (basenameOf path ++ "\n")
        | [path, suffix] => c.prints (trimmed suffix (basenameOf path) ++ "\n")
        | _ :: _ :: extra :: _ => c.misused 1 s!"extra operand '{extra}'"
        | [] => c.misused 1 "missing operand"

/-- The path of the directory that a path is in. -/
def dirnameOf (path : String) : String :=
  let whole := withoutSlashes path
  let before := whole.toList.reverse.dropWhile (· != '/')
  if before.isEmpty then if whole = "/" then "/" else "."
  else
    let trimmed := withoutSlashes (String.ofList before.reverse)
    if trimmed.isEmpty then "/" else trimmed

/-- Prints paths without their last names. -/
def dirname : Tool := fun c =>
  c.withOptions { plain := "z" } 1 fun o =>
    if o.operands.isEmpty then c.misused 1 "missing operand"
    else c.prints (unlines (o.operands.map dirnameOf))

/-- Prints the absolute paths of files. -/
def realpath : Tool := fun c =>
  c.withOptions { plain := "emsqzLPfn" } 1 fun o =>
    if o.operands.isEmpty then c.misused 1 "missing operand"
    else forPaths c o.operands 1 fun t path =>
      match t.disk.locate (Text.decode path) with
      | .ok (.directory location) | .ok (.name location _) =>
        if o.has 'e' && (t.disk.lookup? location).isNone then
          t.complain c s!"{path}: No such file or directory"
        else t.print (Text.encode ("/" ++ "/".intercalate location))
      | .error e => t.complain c s!"{path}: {e.reason}"

/-- Prints the absolute paths of files; there are no links. -/
def readlink : Tool := fun c =>
  c.withOptions { plain := "fenmqszv" } 1 fun o =>
    if o.operands.isEmpty then c.misused 1 "missing operand"
    else if o.has 'f' || o.has 'e' || o.has 'm' then
      { realpath { c with args := o.operands } with err := "" }
    else c.ends 1

/-- A template with letters in the place of each `X`, which depend on a number. -/
def filledTemplate (n : Nat) (template : String) : String :=
  let letters := "q3vZr81LkT".toList
  String.ofList (template.toList.zipIdx.map fun (ch, i) =>
    if ch == 'X' then (letters[(i + n) % 10]?).getD 'q' else ch)

/-- Makes a file or a directory with a new name. -/
def mktemp : Tool := fun c =>
  c.withOptions { plain := "dqut", valued := "p", long := [("directory", 'd')] } 1 fun o =>
    let inTemporary := o.operands.isEmpty || o.has 't'
    let name := filledTemplate c.disk.entries.length (o.operands.headD "tmp.XXXXXXXXXX")
    let path := match o.value? 'p' with
      | some directory => pathWithin directory name
      | none => if inTemporary then "/tmp/" ++ name else name
    let made := if o.has 'd' then c.disk.makeDirectory (Text.decode path)
      else Process.writeFile c.disk path ""
    match made with
    | .ok d => { disk := d, out := path ++ "\n" }
    | .error e => c.fails 1 s!"failed to create file via template '{path}': {e.reason}"

/-- Prints facts about files by a format; sizes and names are known. -/
def stat : Tool := fun c =>
  let options : OptionTable :=
    { plain := "Lft", valued := "c", long := [("format", 'c'), ("printf", 'c')] }
  c.withOptions options 1 fun o =>
    let format := (o.value? 'c').getD "%n"
    forPaths c o.operands 1 fun t path =>
      match t.disk.find (Text.decode path) with
      | .error e => t.complain c s!"cannot statx '{path}': {e.reason}"
      | .ok (location, entry) =>
        let size := match entry with
          | .file content => content.bytes.length
          | .directory => 4096
        let kind := match entry with
          | .file _ => if size = 0 then "regular empty file" else "regular file"
          | .directory => "directory"
        let mode := if entry == .directory || t.disk.isProgram location then "755" else "644"
        let text := (((format.replace "%n" path).replace "%s" (toString size)).replace "%F" kind)
        t.print (text.replace "%a" mode)

/-- Sets the length of files. -/
def truncateTool : Tool := fun c =>
  c.withOptions { plain := "co", valued := "sr", long := [("size", 's')] } 1 fun o =>
    match (o.value? 's').bind fun s => scaled? s.toList with
    | none => c.misused 1 "you must specify either '--size' or '--reference'"
    | some size => forPaths c o.operands 1 fun t path =>
      let before := ((Process.readFile t.disk path).toOption.getD "").toList
      let text := String.ofList (before.take size ++ List.replicate (size - before.length) '\x00')
      match Process.writeFile t.disk path text with
      | .ok d => { t with disk := d }
      | .error e => t.complain c s!"cannot open '{path}' for writing: {e.reason}"

end MutationTesting.Shell
