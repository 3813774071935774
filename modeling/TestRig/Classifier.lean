import TestRig.Exception.Report
import TestRig.Identity
import TestRig.Journal

/-!
# TestRig.Classifier — endings become verdicts

* A body that returns passes; a `failure` fails with its message; any other error fails with a
  description, anything else raised fails without one.  For the last two a dumper is asked for a
  dump.
* An interrupt is no verdict: it goes on, and so does what a description or a dumper raises.
* `Classifier.report` is the verdict together with the outcome to be written, if there is one.
* `Classifier.run` writes a test's line: its name, if wanted, before the body runs, and its outcome.
-/

namespace TestRig

/-- Renders a dump of an unexpected exception; it can raise. -/
abbrev Dumper := Option (Thrown → Except Thrown String)

/-- What keeps an action from returning: something is raised, or the process is gone. -/
inductive Halt
  | raised (t : Thrown)
  | left (how : Departure)
  deriving Inhabited

namespace Halt

def ofException (e : Exception) : Halt := raised (.ofException e)

/-- The user stopped the run. -/
def isInterrupt : Halt → Bool
  | raised t => t.kind.family == .interrupt
  | left _ => false

/-- A fault of the command line, the suite or the environment. -/
def isComplaint : Halt → Bool
  | raised t => t.isComplaint
  | left _ => false

end Halt

/-- The dumpers that can be described. -/
inductive Dumper.Plan
  | text (s : String)
  | describe
  | report
  | raise (plan : Exception.Plan)
  deriving Inhabited

def Dumper.ofPlan : Option Dumper.Plan → Dumper
  | none => none
  | some (.text s) => some fun _ => .ok s
  | some .describe => some Thrown.describe
  | some .report => some fun t => .ok t.indentedReport
  | some (.raise plan) => some fun _ => match plan.build with
    | .ok t => .error t
    | .error t => .error t

namespace Classifier

def dump (d : Dumper) (t : Thrown) : Except Thrown String :=
  match d with
  | none => .ok ""
  | some f => f t

/-- The verdict on an error: its description and its dump. -/
def verdictOnError (d : Dumper) (name : String) (t : Thrown) : Except Thrown Verdict := do
  let text ← t.describe
  let dump ← dump d t
  return { name, passed := false, message := .text text, unexpected := true, dump }

/-- The verdict on what is no error: its dump alone. -/
def verdictOnDeparture (d : Dumper) (name : String) (t : Thrown) : Except Thrown Verdict := do
  let dump ← dump d t
  return { name, passed := false, unexpected := true, dump }

def classify (d : Dumper) (name : String) : Ending → Except Halt Verdict
  | .returned => .ok { name, passed := true }
  | .left how => .error (.left how)
  | .raised t => match t.kind.family with
    | .failure => (t.exception.failureMessage.mapError .ofException).map fun message =>
      { name, passed := false, message }
    | .complaint | .loading | .error => (verdictOnError d name t).mapError .raised
    | .interrupt => .error (.raised t)
    | .departure => (verdictOnDeparture d name t).mapError .raised

/-- The outcome of an interrupted test. -/
def interruptedText : String := "FAIL (interrupted)\n"

/-- The verdict on a test and the outcome that is written: that of the verdict, or of an interrupt. -/
def report (d : Dumper) (name : String) (e : Ending) : Except Halt Verdict × Option String :=
  match classify d name e with
  | .ok v => match v.text with
    | .ok text => (.ok v, some text)
    | .error x => (.error (.ofException x), none)
  | .error h => (.error h, if h.isInterrupt then some interruptedText else none)

/-- Write the name of a test as the beginning of its line. -/
def beginLine (test : Identity) (j : Journal) : Journal := (j.write (test.name ++ ": ")).flush

/-- What is done to write an outcome. -/
def outcomeWork (text : String) : List Journal.Act :=
  [.display (.outcome text), .record text, .flushConsole, .flushLog]

def writeOutcome (text : String) (j : Journal) : Journal := j.does (outcomeWork text)

/-- Write the line of a test; its name is left out if something has written it already. -/
def run (d : Dumper) (test : Identity) (named : Bool) (e : Ending) (j : Journal) :
    Except Halt Verdict × Journal :=
  let j := if named then beginLine test j else j
  let (verdict, outcome) := report d test.name e
  (verdict, match outcome with
    | some text => writeOutcome text j
    | none => j)

end Classifier

end TestRig
