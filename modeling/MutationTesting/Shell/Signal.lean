/-!
# Signals

The signals that end a process, by number and by name.
-/

namespace MutationTesting.Shell

/-- A signal that processes may be sent. -/
structure Signal where
  number : Nat
  name : String
  /-- What is said of a process that the signal ended. -/
  obituary : String
  deriving DecidableEq, Repr

namespace Signal

def all : List Signal := [
  ⟨0, "EXIT", ""⟩, ⟨1, "HUP", "Hangup"⟩, ⟨2, "INT", ""⟩, ⟨3, "QUIT", "Quit"⟩,
  ⟨4, "ILL", "Illegal instruction"⟩, ⟨5, "TRAP", "Trace/breakpoint trap"⟩, ⟨6, "ABRT", "Aborted"⟩,
  ⟨7, "BUS", "Bus error"⟩, ⟨8, "FPE", "Floating point exception"⟩, ⟨9, "KILL", "Killed"⟩,
  ⟨10, "USR1", "User defined signal 1"⟩, ⟨11, "SEGV", "Segmentation fault"⟩,
  ⟨12, "USR2", "User defined signal 2"⟩, ⟨13, "PIPE", ""⟩, ⟨14, "ALRM", "Alarm clock"⟩,
  ⟨15, "TERM", "Terminated"⟩, ⟨17, "CHLD", ""⟩, ⟨18, "CONT", ""⟩, ⟨19, "STOP", ""⟩,
  ⟨20, "TSTP", ""⟩, ⟨21, "TTIN", ""⟩, ⟨22, "TTOU", ""⟩, ⟨23, "URG", ""⟩,
  ⟨24, "XCPU", "CPU time limit exceeded"⟩, ⟨25, "XFSZ", "File size limit exceeded"⟩,
  ⟨26, "VTALRM", "Virtual timer expired"⟩, ⟨27, "PROF", "Profiling timer expired"⟩,
  ⟨28, "WINCH", ""⟩, ⟨29, "IO", "I/O possible"⟩, ⟨30, "PWR", "Power failure"⟩,
  ⟨31, "SYS", "Bad system call"⟩]

/-- The signal with a number. -/
def ofNumber? (n : Nat) : Option Signal := all.find? (·.number == n)

/-- The signal that a text names by its number, or by its name in any case. -/
def ofText? (text : String) : Option Signal :=
  let upper := String.ofList (text.toList.map Char.toUpper)
  all.find? fun s => toString s.number == text || s.name == upper || "SIG" ++ s.name == upper

/-- The signal that a text names by its number, or by its name in any case, as the shell has
it: without letters in front. -/
def ofShortText? (text : String) : Option Signal :=
  if text.toList.take 3 == "SIG".toList then none else ofText? text

/-- What is said of a process that a signal ended. -/
def obituaryOf (n : Nat) : String := ((ofNumber? n).map (·.obituary)).getD ""

/-- Whether a signal stops a process, which then goes on only after another one. -/
def isStop (n : Nat) : Bool := 19 ≤ n && n ≤ 22

/-- Whether a signal leaves a process as it is. -/
def isHarmless (n : Nat) : Bool := [0, 17, 18, 23, 28].contains n

/-- Whether a signal does not end this program: an interruption is noted, a broken pipe is an error
of what is written, and the signals of bad addresses end only what has caused them. -/
def isTaken (n : Nat) : Bool := [2, 7, 11, 13].contains n

end Signal

end MutationTesting.Shell
