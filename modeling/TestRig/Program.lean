import TestRig.Session

/-!
# TestRig.Program — programs of tests

A program of tests sets up a rig, runs the steps of its suite up to the first one that raises,
closes the rig, and exits with 0 if no test failed, else with 1.

* `runSteps` runs steps and collects the answers.
* `Program.run` is the whole program; complaints are printed and make the exit code 1.
-/

namespace TestRig

def Step.perform (s : Step) (r : Rig) : Except Halt Answer × Rig :=
  match s with
  | .ask q =>
    let (a, r) := q.serve r
    (match a.halt? with
      | some h => .error h
      | none => .ok a, r)
  | .raise t => (.error (.raised t), r)

/-- What the steps of a suite came to: what they were answered, what ended them, and the rig. -/
structure Steps where
  answers : List Answer := []
  halt : Option Halt := none
  rig : Rig

/-- Run steps up to the first one that raises. -/
def runSteps : List Step → Rig → Steps
  | [], rig => { rig }
  | s :: r, rig => match s.perform rig with
    | (.ok a, rig) =>
      let rest := runSteps r rig
      { rest with answers := a :: rest.answers }
    | (.error h, rig) => { halt := some h, rig }

/-- What a program left: how it ended, what its steps were answered, what it printed, its console and
the system that it ran on. -/
structure Report where
  exit : Except Halt Nat
  answers : List Answer := []
  output : String := ""
  message : String := ""
  disk : Disk
  rig : Option Rig := none

/-- The text of the console. -/
def Report.console (r : Report) : String := (r.rig.map (·.journal.consoleText)).getD ""

/-- End a report with a complaint: its text is printed and the exit code is 1.  If it has no text,
what is raised in making one ends the program. -/
def Report.complain (report : Report) (t : Thrown) (style : String → String) : Report :=
  match t.exception.text with
  | .ok text =>
    { report with exit := .ok ExitStatus.error.code, message := style s!"error: {text}" ++ "\n" }
  | .error x => { report with exit := .error (.ofException x) }

namespace Program

/-- End a report with something raised. -/
def endWith (report : Report) (h : Halt) : Report :=
  match h with
  | .left _ => { report with exit := .error h }
  | .raised t => if t.isComplaint then report.complain t id else { report with exit := .error h }

def run (s : Setup) (steps : List Step) : Report :=
  match Rig.set s with
  | .error f =>
    endWith { exit := .ok 0, output := f.output, disk := s.disk } (.ofException f.exception)
  | .ok rig =>
    let done := runSteps steps rig
    let rig := done.rig.close
    let report : Report :=
      { exit := .ok rig.exitStatus.code, answers := done.answers, disk := rig.journal.disk
        rig := some rig }
    match done.halt with
    | none => report
    | some h => endWith report h

end Program

end TestRig
