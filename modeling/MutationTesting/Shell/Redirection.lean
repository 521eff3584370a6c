import MutationTesting.Shell.Expansion
import MutationTesting.Shell.Surroundings
import MutationTesting.Text.Search

/-!
# Redirections

`redirect` sets the streams that a command has, one redirection after the other.
-/

namespace MutationTesting.Shell

/-- Zero bytes, as many as are ever asked for. -/
def zeros (wanted : Nat) : String := String.ofList (List.replicate wanted '\x00')

/-- The stream that a path names, if it names one. -/
def streamOfPath? (path : String) : Option Nat :=
  match path with
  | "/dev/stdin" => some 0
  | "/dev/stdout" => some 1
  | "/dev/stderr" => some 2
  | _ =>
    match Text.afterStart? "/dev/fd/".toList path.toList with
    | some [c] => if Text.isDigit c then some (c.toNat - '0'.toNat) else none
    | _ => none

/-- Lets a stream be what another one is. -/
def duplicate (stream other : Nat) : Eval Unit := do
  match (← get).handle? other with
  | some handle => modify (·.setHandle stream (some handle))
  | none => fail s!"{other}: Bad file descriptor"

/-- Lets a stream read a text. -/
def readFrom (stream : Nat) (text : String) (isFile : Bool) : Eval Unit := modify fun p =>
  let flow : Flow := { chunks := if text.isEmpty then [] else [⟨0, text⟩], isFile := isFile }
  let (n, p) := p.openFlow flow
  p.setHandle stream (some (.input n))

/-- Lets a stream read a file. -/
def openInput (stream : Nat) (path : String) : Eval Unit := do
  match streamOfPath? path with
  | some other => duplicate stream other
  | none =>
    if path = "/dev/zero" then readFrom stream (zeros maxPipe) true
    else if path = "/dev/null" then readFrom stream "" true
    else match Process.readFile (← get).disk path with
      | .ok text => readFrom stream text true
      | .error .isADirectory => readFrom stream "" true
      | .error e =>
        if (fileKind? (← get).disk path).isSome then readFrom stream "" true
        else if e.isAbsence then fail s!"cannot open {path}: No such file"
        else fail s!"cannot open {path}: {e.reason}"

/-- Lets a stream write to a file, which is made empty unless text is added to its end. -/
def openOutput (stream : Nat) (path : String) (atEnd force : Bool) : Eval Unit := do
  match streamOfPath? path with
  | some other => duplicate stream other
  | none =>
    let p ← get
    let refuse (e : FileError) : Eval Unit :=
      if e.isAbsence then fail s!"cannot create {path}: Directory nonexistent"
      else fail s!"cannot create {path}: {e.reason}"
    if path = "/dev/null" then set (p.setHandle stream (some (.output .nowhere)))
    else if path = "/dev/tty" then fail s!"cannot create {path}: No such device or address"
    else
      let isThere := p.disk.isPresent (Text.decode path)
      if p.hasOption 'C' && !force && isThere && !p.disk.isDirectory (Text.decode path) then
        fail s!"cannot create {path}: File exists"
      else
        let made := if atEnd && isThere then
            if p.disk.isDirectory (Text.decode path) then .error .isADirectory else .ok p.disk
          else Process.writeFile p.disk path ""
        match made with
        | .error e => refuse e
        | .ok disk =>
          let p := { p with disk := disk }
          set (p.setHandle stream (some (.output (.file (p.absolute path)))))

section

variable (run : Runner)

/-- Sets a stream. -/
def applyRedirect (r : Redirect) : Eval Unit := do
  match r with
  | .input stream source => do openInput stream (← expandText run source)
  | .output stream target force => do openOutput stream (← expandText run target) false force
  | .append stream target => do openOutput stream (← expandText run target) true true
  | .both stream target => do
    let path ← expandText run target
    if stream = 0 then
      if !(← get).disk.isPresent (Text.decode path) then openOutput stream path true true
      openInput stream path
    else openOutput stream path true true
  | .document stream body => do readFrom stream (← expandText run body) true
  | .duplicate stream other => do
    let text ← expandText run other
    if text = "-" then modify (·.setHandle stream none)
    else match text.toList with
      | [c] =>
        if Text.isDigit c then
          let n := c.toNat - '0'.toNat
          if n ≠ stream then duplicate stream n
        else fail "Syntax error: Bad fd number"
      | _ => fail "Syntax error: Bad fd number"

/-- Sets streams, one after the other. -/
def redirect (redirects : List Redirect) : Eval Unit := redirects.forM (applyRedirect run)

/-- Sets streams; gives whether that could be done. -/
def redirected? (redirects : List Redirect) : Eval Bool :=
  tryCatch (do redirect run redirects; return true) fun
    | .flaw status => do
      setStatus status
      return false
    | halt => throw halt

/-- Does something, after which the streams of redirections are put back. -/
def restoring (redirects : List Redirect) (action : Eval Unit) : Eval Unit := do
  if redirects.isEmpty then action
  else
    let before ← get
    let streams := (redirects.map Redirect.stream).eraseDups
    let restore : Eval Unit := modify fun p =>
      streams.foldl (fun p n => p.setHandle n (before.handle? n)) p
    tryCatch action fun halt => do
      restore
      throw halt
    restore

/-- Does something while streams are set, which are put back afterwards. -/
def withRedirects (redirects : List Redirect) (action : Eval Unit) : Eval Unit :=
  restoring redirects do if ← redirected? run redirects then action

end

end MutationTesting.Shell
