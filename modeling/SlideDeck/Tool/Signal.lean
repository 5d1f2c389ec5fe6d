import SlideDeck.Text.Number

/-!
# Signals

A signal ends a program from outside. Signals have numbers and names; some of them
are of no matter to a program that does not ask for them.
-/

set_option autoImplicit false

namespace SlideDeck

open SlideDeck.Text

/-- The names of the signals, by their numbers from one on. -/
def signalNames : List String :=
  ["HUP", "INT", "QUIT", "ILL", "TRAP", "ABRT", "BUS", "FPE", "KILL", "USR1", "SEGV", "USR2",
    "PIPE", "ALRM", "TERM", "STKFLT", "CHLD", "CONT", "STOP", "TSTP", "TTIN", "TTOU", "URG",
    "XCPU", "XFSZ", "VTALRM", "PROF", "WINCH", "IO", "PWR", "SYS"]

/-- The name of a signal. -/
def signalName? (signal : Nat) : Option Text :=
  if signal = 0 then none else (signalNames[signal - 1]?).map String.toList

/-- Whether a program that gets the signal goes on all the same. -/
def isIdleSignal (signal : Nat) : Bool := [17, 18, 23, 28].contains signal

/-- How a program ended. -/
inductive ProgramEnd where
  | exited (status : Nat)
  | killed (signal : Nat)
  deriving DecidableEq, Repr

namespace ProgramEnd

/-- How a program ended, in words. -/
def message : ProgramEnd → Text
  | .exited status => "exit status: ".toList ++ ofNat status
  | .killed signal =>
    "signal: ".toList ++ ofNat signal ++
      match signalName? signal with
      | some name => " (SIG".toList ++ name ++ [')']
      | none => []

/-- Whether the program ended with success. -/
def isSuccess : ProgramEnd → Bool
  | .exited status => status == 0
  | .killed _ => false

end ProgramEnd

end SlideDeck
