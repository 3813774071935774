import TestRig.Configuration
import TestRig.Supervision.Host

/-!
# TestRig.Supervision.Line — the line of a test in a process of its own

A test runs in a copy of this process (`fork`) or in a program that is started for it (`spawn`).
This process writes the test's name before that one starts, so that every outcome, whoever reports
it, ends a line that names the test.  A child process writes its own outcome and exits with 0 or 1;
any other ending is reported here.
-/

namespace TestRig.Supervision

/-- Which kind of process a test runs in. -/
inductive Strategy
  | fork
  | spawn
  deriving DecidableEq, Repr, Inhabited

/-- Forking is used where it is available, unless spawning is asked for. -/
def Strategy.choose (spawn canFork : Bool) : Strategy := if spawn || !canFork then .spawn else .fork

/-- The reason given for a test that was killed at its time limit. -/
def timedOut : String := "timed out"

/-- Write the name of a test and flush everything before its process starts. -/
def startLine (test : Identity) (h : Host) : Host := h.onJournal (Classifier.beginLine test)

/-- Judge an exit code: a child has reported 0 and 1 itself. -/
def checkExitCode (code : Int) (h : Host) : Bool × Host :=
  if code = ExitStatus.success.code then (true, h)
  else if code = ExitStatus.error.code then (false, h)
  else (false, h.reportFailure s!"exit status {Text.showInt code}")

/-- Judge the exit code of a child process and note it. -/
def judgeExit (test : Identity) (pid : Nat) (code : Int) (h : Host) : Except Halt Bool × Host :=
  let (passed, h) := checkExitCode code h
  (.ok passed, h.note
    s!"{test.name}: child process {Text.showNat pid} exited with {Text.showInt code}")

/-- An exception about a call to the system, with the reason that it gives; making the text of the
reason can itself raise. -/
def callFailure (kind : Kind) (what : String) (reason : Except Exception String) : Halt :=
  match reason with
  | .ok reason => .ofException (.of kind s!"{what}: {reason}")
  | .error x => .ofException x

/-- No process could be made for a test. -/
def creationFailure (what : String) (test : Identity) (reason : Except Exception String) : Halt :=
  callFailure .processCreationFailure s!"{what} for test {test.name}" reason

/-- A process could not be controlled. -/
def controlFailure (call : String) (e : Exception) : Halt :=
  callFailure .processControlFailure s!"{call}() failed" e.reason

def isNamed (e : Exception) (name : String) : Bool := e.kind.name == name

def passInterrupt (h : Host) : Except Halt Bool × Host := (.error (.raised .interrupted), h)

end TestRig.Supervision
