/-!
# Signals

The signals of the system by number: their names, what is said of a program that one of them ended,
and which of them end a program at all.
-/

namespace Anchored.Shell

/-- The signals that have a name of their own, from the first on, with what is said of a program
that was ended by it. -/
def signals : List (String × String) :=
  [("HUP", "Hangup"), ("INT", "Interrupt"), ("QUIT", "Quit"), ("ILL", "Illegal instruction"),
    ("TRAP", "Trace/breakpoint trap"), ("ABRT", "Aborted"), ("BUS", "Bus error"),
    ("FPE", "Floating point exception"), ("KILL", "Killed"), ("USR1", "User defined signal 1"),
    ("SEGV", "Segmentation fault"), ("USR2", "User defined signal 2"), ("PIPE", "Broken pipe"),
    ("ALRM", "Alarm clock"), ("TERM", "Terminated"), ("16", "Stack fault"),
    ("CHLD", "Child exited"), ("CONT", "Continued"), ("STOP", "Stopped (signal)"),
    ("TSTP", "Stopped"), ("TTIN", "Stopped (tty input)"), ("TTOU", "Stopped (tty output)"),
    ("URG", "Urgent I/O condition"), ("XCPU", "CPU time limit exceeded"),
    ("XFSZ", "File size limit exceeded"), ("VTALRM", "Virtual timer expired"),
    ("PROF", "Profiling timer expired"), ("WINCH", "Window changed"), ("IO", "I/O possible"),
    ("PWR", "Power failure"), ("SYS", "Bad system call")]

/-- The number of the last signal. -/
def lastSignal : Nat :=
  64

/-- The name of a signal; zero stands for the end of the shell. -/
def signalName (n : Nat) : String :=
  if n = 0 then "EXIT"
  else
    match signals[n - 1]? with
    | some (name, _) => name
    | none =>
      if n < 34 then toString n
      else if n = 34 then "RTMIN"
      else if n = lastSignal then "RTMAX"
      else if n < 50 then "RTMIN+" ++ toString (n - 34)
      else "RTMAX-" ++ toString (lastSignal - n)

/-- What is said of a program that a signal ended. -/
def signalText (n : Nat) : String :=
  match signals[n - 1]? with
  | some (_, text) => text
  | none =>
    if n < 34 then "Unknown signal " ++ toString n
    else "Real-time signal " ++ toString (n - 34)

/-- What a signal does to a program that says nothing about it. -/
inductive SignalEffect where
  | ends
  | ignored
  | stops
  deriving DecidableEq, Repr

/-- The effect of a signal. -/
def signalEffect (n : Nat) : SignalEffect :=
  if [17, 18, 23, 28].contains n then .ignored
  else if [19, 20, 21, 22].contains n then .stops
  else .ends

/-- The signal that a text numbers, or names from the signal `least` on. -/
def signalOf? (least : Nat) (text : String) : Option Nat :=
  let digits := text.toList
  if ! digits.isEmpty && digits.all Char.isDigit then
    match text.toNat? with
    | some n => if n ≤ lastSignal then some n else none
    | none => none
  else
    ((List.range (lastSignal + 1)).drop least).find? fun n =>
      (signalName n).toUpper == text.toUpper

end Anchored.Shell
