import TestRig.Arguments
import TestRig.Exception.Plan
import TestRig.Signal
import TestRig.Template

/-!
# TestRig.Body — what tests do

A test body gets the named values of the run and ends in one of a few ways: it returns, it raises,
or it takes the process with it.

* `Deed` describes simple bodies by data, `Deed.body` is the body it describes.
-/

namespace TestRig

/-- How a body leaves without returning to its caller. -/
inductive Departure
  /-- The process ends at once with an exit code. -/
  | exited (code : Nat)
  /-- The process is sent a signal and waits. -/
  | signalled (signal : Nat)
  /-- The process waits. -/
  | endless
  deriving DecidableEq, Repr, Inhabited

inductive Ending
  | returned
  | raised (t : Thrown)
  | left (how : Departure)
  deriving Inhabited

abbrev Body := Arguments → Ending

inductive Deed
  | pass
  | fail (args : List Value)
  | failFormat (template : String) (values : List Value)
  | raise (plan : Exception.Plan)
  | expect (name : String) (default want : Value)
  | exit (code : Int)
  | signal (number : Int)
  | sleep
  deriving Inhabited

namespace Deed

/-- Raise an exception, or what its construction raises. -/
def raising (e : Except Exception Exception) : Ending :=
  match e with
  | .ok e => .raised (.ofException e)
  | .error e => .raised (.ofException e)

/-- A failure with a message made from a template; without values the template is the message. -/
def formatted (template : String) (values : List Value) : Except Exception Exception :=
  if values.isEmpty then Exception.construct .testFailure [.text template] else
  match Template.fill template values with
  | .ok s => Exception.construct .testFailure [.text s]
  | .error f => .error f.exception

def body : Deed → Body
  | pass, _ => .returned
  | fail args, _ => raising (Exception.construct .testFailure args)
  | failFormat template values, _ => raising (formatted template values)
  | raise plan, _ => match plan.build with
    | .ok t => .raised t
    | .error t => .raised t
  | expect name default want, arguments =>
    let got := arguments.getValue name default
    if got.same want then .returned
    else raising (formatted "%s: got %r, expected %r" [.text name, got, want])
  | exit code, _ =>
    if code < -2147483648 ∨ 2147483647 < code then
      .raised (.of .overflowError "Python int too large to convert to C int")
    else .left (.exited (code % 256).toNat)
  | signal number, _ =>
    if number < 1 ∨ (Signal.lastRealTime : Int) < number then
      .raised (.of .valueError "signal number out of range")
    else .left (.signalled number.toNat)
  | sleep, _ => .left .endless

end Deed

end TestRig
