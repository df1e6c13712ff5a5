import SharedConstants.Shell.Arithmetic

/-!
# Signals

Signals have numbers and names. Most of them end a process that does not ask for something else.
-/
namespace SharedConstants.Shell.Signal

/-- The names of signals by their numbers; zero stands for the end of a process. -/
def names : List String :=
  ["EXIT", "HUP", "INT", "QUIT", "ILL", "TRAP", "ABRT", "BUS", "FPE", "KILL", "USR1", "SEGV",
    "USR2", "PIPE", "ALRM", "TERM", "STKFLT", "CHLD", "CONT", "STOP", "TSTP", "TTIN", "TTOU",
    "URG", "XCPU", "XFSZ", "VTALRM", "PROF", "WINCH", "IO", "PWR", "SYS"]

/-- The least number that no signal has. -/
def limit : Nat := 65

def name (n : Nat) : Octets :=
  let text := match names[n]? with
    | some text => text
    | none =>
      if n < 34 then toString n
      else if n = 34 then "RTMIN"
      else if n < 50 then s!"RTMIN+{n - 34}"
      else if n < 64 then s!"RTMAX-{64 - n}"
      else "RTMAX"
  text.toList

/-- The number of a signal, given by its number or its name. -/
def number? (least : Nat) (text : Octets) : Option Nat :=
  match Octets.toNat? text with
  | some n => if n < limit then some n else none
  | none =>
    let wanted := text.map Octets.toUpper
    (List.range limit).find? fun n => least ≤ n && name n = wanted

/-- What is said of a process that a signal ended. -/
def wording (n : Nat) : String :=
  match n with
  | 1 => "Hangup"
  | 3 => "Quit"
  | 4 => "Illegal instruction"
  | 5 => "Trace/breakpoint trap"
  | 6 => "Aborted"
  | 7 => "Bus error"
  | 8 => "Floating point exception"
  | 9 => "Killed"
  | 10 => "User defined signal 1"
  | 11 => "Segmentation fault"
  | 12 => "User defined signal 2"
  | 14 => "Alarm clock"
  | 15 => "Terminated"
  | 16 => "Stack fault"
  | 24 => "CPU time limit exceeded"
  | 25 => "File size limit exceeded"
  | 26 => "Virtual timer expired"
  | 27 => "Profiling timer expired"
  | 29 => "I/O possible"
  | 30 => "Power failure"
  | 31 => "Bad system call"
  | n => s!"Real-time signal {n - 34}"

/-- Whether a signal passes by a process that does not ask for it. -/
def isHarmless (n : Nat) : Bool := [0, 17, 18, 23, 28].contains n

/-- Whether a signal halts a process that does not ask for it. -/
def isHalting (n : Nat) : Bool := [19, 20, 21, 22].contains n

/-- Whether a signal cannot be asked for. -/
def isStrict (n : Nat) : Bool := n = 9 || n = 19

end SharedConstants.Shell.Signal
