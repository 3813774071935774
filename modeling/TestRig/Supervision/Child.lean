import TestRig.Classifier
import TestRig.Supervision.ReturnCode

/-!
# TestRig.Supervision.Child — copies of this process at work

A child is a copy of this process that runs one test beside it.  It writes to the same console and
the same log, but what is pending in it is its own, and is lost if it is killed.

* `Child.ofEnding` is a child as it begins: what it will do to its sinks, and how it ends, if it does.
* `Child.act` does one thing; `Journal.take`, `Journal.takeLog`, `Journal.show` and `Journal.append` are
  what the journal of this process sees of it.
-/

namespace TestRig

/-! ## What others do to the sinks -/

namespace Journal

/-- Another process has written a chunk to its console. -/
def take (j : Journal) (c : Chunk) : Journal :=
  { j with console := { j.console with accepted := j.console.accepted ++ [c] } }

def takeLog (j : Journal) (s : String) : Journal :=
  { j with log := j.log.map fun l => { l with
      sink := { l.sink with accepted := l.sink.accepted ++ [s] } } }

/-- Another process has flushed chunks to the console. -/
def «show» (j : Journal) (cs : List Chunk) : Journal :=
  { j with console := { j.console with flushed := j.console.flushed ++ cs } }

/-- Another process has flushed texts to the file at a location. -/
def append (j : Journal) (l : Location) (texts : List String) : Journal :=
  { j with
    log := j.log.map fun f => { f with sink := { f.sink with flushed := f.sink.flushed ++ texts } }
    disk := j.disk.append l (String.join texts) }

end Journal

/-! ## Children -/

namespace Supervision

/-- The log of a child, with what is pending in it. -/
structure ChildLog where
  location : Location
  pending : List String
  deriving DecidableEq, Repr

structure Child where
  pid : Nat
  /-- The chunks that are pending in its console. -/
  console : List Chunk
  log : Option ChildLog
  /-- What it has still to do. -/
  work : List Journal.Act
  /-- How it ends behind its work, if it ends. -/
  status : Option Status
  ended : Bool := false
  deriving DecidableEq, Repr

namespace Child

/-- What is pending in the log of a journal. -/
def pendingLog (c : Child) : List String := (c.log.map (·.pending)).getD []

/-- What a copy of this process does for a test, and how it ends: it writes the outcome, flushes, and
exits with the code of the verdict, unless the body takes the process with it. -/
def script (d : Dumper) (test : Identity) (e : Ending) : List Journal.Act × Option Status :=
  match e with
  | .left (.exited code) => ([], some (.exited (code % 256)))
  | .left (.signalled n) => ([], if Signal.ends n then some (.killed n) else none)
  | .left .endless => ([], none)
  | e =>
    let (verdict, outcome) := Classifier.report d test.name e
    let code := match verdict with
      | .ok v => v.exitCode
      | .error _ => ExitStatus.error.code
    ((outcome.map Classifier.outcomeWork).getD [] ++ [.flushConsole, .flushLog],
      some (.exited code))

/-- A copy of this process as it begins to run a test. -/
def ofEnding (pid : Nat) (d : Dumper) (test : Identity) (e : Ending) (j : Journal) : Child :=
  { pid
    console := j.console.pending
    log := j.log.map fun l => ⟨l.location, l.sink.pending⟩
    work := (script d test e).1
    status := (script d test e).2 }

/-- Do one thing to the sinks. -/
def act (c : Child) (a : Journal.Act) (j : Journal) : Child × Journal :=
  match a with
  | .display k => ({ c with console := c.console ++ [k] }, j.take k)
  | .record s => match c.log with
    | none => (c, j)
    | some l => ({ c with log := some { l with pending := l.pending ++ [s] } }, j.takeLog s)
  | .flushConsole => ({ c with console := [] }, j.show c.console)
  | .flushLog => match c.log with
    | none => (c, j)
    | some l => ({ c with log := some { l with pending := [] } }, j.append l.location l.pending)

end Child

end Supervision

end TestRig
