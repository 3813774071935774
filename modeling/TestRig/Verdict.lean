import TestRig.Exception

/-!
# TestRig.Verdict — what became of a test

* `Verdict.text` is the outcome behind a test's name, if it can be written: `PASS`, `FAIL` with a reason, or
  `FAIL with exception` with a description and a dump.
* `Verdict.exitCode` is the exit code of a process that ran one test.
-/

namespace TestRig

/-- The exit status of a program of tests, and of a process that ran one test. -/
inductive ExitStatus
  | success
  | error
  deriving DecidableEq, Repr, Inhabited

/-- The exit code of a status. -/
def ExitStatus.code : ExitStatus → Nat
  | success => 0
  | error => 1

/-- The name of a status. -/
def ExitStatus.name : ExitStatus → String
  | success => "SUCCESS"
  | error => "ERROR"

/-- What became of a test. -/
structure Verdict where
  name : String := ""
  passed : Bool
  /-- The reason of a failure, or the description of an exception. -/
  message : Value := .text ""
  /-- The test ended with an unexpected exception. -/
  unexpected : Bool := false
  /-- What is written below the outcome of an unexpected exception. -/
  dump : String := ""
  deriving Repr, Inhabited

namespace Verdict

/-- Success or error. -/
def status (v : Verdict) : ExitStatus := if v.passed then .success else .error

/-- The exit code of a process that ran this test. -/
def exitCode (v : Verdict) : Nat := v.status.code

/-- The message in parentheses behind a blank, if it says anything. -/
def remark (v : Verdict) : Option String :=
  if v.message.truthy then v.message.shown.map fun s => s!" ({s})" else some ""

/-- What is written below the outcome; newlines at its end do not count. -/
def trailer (v : Verdict) : String :=
  if v.dump.isEmpty then ""
  else String.ofList (Text.dropWhileEnd (· == '\n') v.dump.toList) ++ "\n"

/-- The outcome, ended by a newline, or the exception raised if its message is not written. -/
def text (v : Verdict) : Except Exception String :=
  if v.passed then .ok "PASS\n" else
  Exception.orUnwritable (v.remark.map fun remark =>
    if v.unexpected then s!"FAIL with exception{remark}:\n" ++ v.trailer else s!"FAIL{remark}\n")

end Verdict

end TestRig
