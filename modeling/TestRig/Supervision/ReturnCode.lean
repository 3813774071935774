import TestRig.Signal

/-!
# TestRig.Supervision.ReturnCode — how a process ended

* `Status` is the ending of a process: an exit code, or the signal that killed it.
* `Status.returnCode` is one number for both: the exit code, or the signal with a minus sign.
* `describeReturnCode` describes an abnormal ending by that number.  On Windows the exit codes of
  structured exceptions are abnormal too.
-/

namespace TestRig.Supervision

inductive Status
  | exited (code : Nat)
  | killed (signal : Nat)
  deriving DecidableEq, Repr, Inhabited

/-- The number of an ending. -/
def Status.returnCode : Status → Int
  | exited code => code
  | killed signal => -(signal : Int)

/-- The exit codes of structured exceptions. -/
def structuredExceptions : List (Int × String) :=
  [(0xC0000005, "Access violation"),
   (0xC000008C, "Array bounds exceeded"),
   (0x80000003, "Breakpoint encountered"),
   (0x80000002, "Data type misalignment"),
   (0xC000008D, "Denormal floating-point operand"),
   (0xC000008E, "Floating-point division by zero"),
   (0xC000008F, "Inexact floating-point result"),
   (0xC0000090, "Invalid floating-point operation"),
   (0xC0000091, "Floating-point overflow"),
   (0xC0000092, "Floating-point stack overflow/underflow"),
   (0xC0000093, "Floating-point underflow"),
   (0x80000001, "Guard page violation"),
   (0xC000001D, "Illegal instruction"),
   (0xC0000006, "Memory page no longer present"),
   (0xC0000094, "Integer division by zero"),
   (0xC0000095, "Integer overflow"),
   (0xC0000026, "Invalid exception disposition"),
   (0xC0000008, "Invalid handle"),
   (0xC0000025, "Non-continuable exception"),
   (0xC0000096, "Privileged instruction"),
   (0x80000004, "Debug trap"),
   (0xC00000FD, "Stack overflow"),
   (0x80000029, "Frame consolidation")]

/-- The operating systems that number the endings of processes differently. -/
inductive Platform
  | posix
  | windows
  deriving DecidableEq, Repr, Inhabited

def Platform.ofName (name : String) : Platform := if name == "win32" then windows else posix

/-- The description of an abnormal ending, nothing for an ordinary exit. -/
def describeReturnCode (platform : Platform) (code : Int) : Except Exception (Option String) :=
  if code < 0 then (Signal.describeNumber (-code)).map some
  else match platform with
    | .posix => .ok none
    | .windows => .ok (structuredExceptions.lookup (code % 0x100000000))

end TestRig.Supervision
