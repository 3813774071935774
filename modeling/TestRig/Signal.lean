import TestRig.Exception

/-!
# TestRig.Signal — signals and their descriptions

* `Signal.describe` names a signal as a reader knows it; signals without a name, among them the two
  that are kept for internal use, are called by their number.
* `Signal.ends` tells whether a process that does nothing about a signal is ended by it.
-/

namespace TestRig.Signal

def descriptions : List String :=
  ["Hangup", "Interrupt", "Quit", "Illegal instruction", "Trace/breakpoint trap", "Aborted",
   "Bus error", "Floating point exception", "Killed", "User defined signal 1",
   "Segmentation fault", "User defined signal 2", "Broken pipe", "Alarm clock", "Terminated",
   "Stack fault", "Child exited", "Continued", "Stopped (signal)", "Stopped",
   "Stopped (tty input)", "Stopped (tty output)", "Urgent I/O condition",
   "CPU time limit exceeded", "File size limit exceeded", "Virtual timer expired",
   "Profiling timer expired", "Window changed", "I/O possible", "Power failure",
   "Bad system call"]

/-- The first and the last signal for real-time use. -/
def firstRealTime : Nat := 34
def lastRealTime : Nat := 64

def describe (n : Nat) : String :=
  if firstRealTime ≤ n ∧ n ≤ lastRealTime then
    s!"Real-time signal {Text.showNat (n - firstRealTime)}"
  else if n = 0 then s!"signal {Text.showNat n}"
  else (descriptions[n - 1]?).getD s!"signal {Text.showNat n}"

/-- The description of any number; it has to fit into 32 bits. -/
def describeNumber (i : Int) : Except Exception String :=
  if i < -2147483648 ∨ 2147483647 < i then
    .error (.of .overflowError "Python int too large to convert to C int")
  else match i with
    | .ofNat n => .ok (describe n)
    | .negSucc _ => .ok s!"signal {Text.showInt i}"

/-- The signals that stop a process, continue it or are ignored, if nothing is done about them. -/
def harmless : List Nat := [17, 18, 19, 20, 21, 22, 23, 28]

/-- Is a process ended by the signal, if it does nothing about it? -/
def ends (n : Nat) : Bool := 0 < n && n ≤ lastRealTime && !harmless.contains n

end TestRig.Signal
