import TestRig.Registry
import TestRig.Supervision.Fork
import TestRig.Supervision.Spawn

/-!
# TestRig.Rig — running the tests of one group

A rig is set up from a command line.  It runs tests one at a time, in the order in which they come,
each in this process or in one of its own, and counts them.

* `Rig.set` sets a rig up: it reads the command line, stores the named values, selects the tests
  and opens the log, in this order, or says what keeps it from that.
* `Rig.run` runs one test: `none` if the selection leaves it out, else whether it passed.
* `Rig.count`, `Rig.passed` and `Rig.failed` are the numbers; tests that were selected and did not
  run count as failed.
* `Rig.close` reports those tests and closes the log.
-/

namespace TestRig

structure Setup where
  group : String
  argv : List String
  dumper : Dumper := none
  /-- The command that starts this program again; else the interpreter with the program's path. -/
  command : Option (List String) := none
  interpreter : String
  /-- The console is a terminal. -/
  terminal : Bool := false
  disk : Disk := Disk.blank
  faults : Supervision.Faults := {}
  /-- The programs that can be started. -/
  launcher : Supervision.Launcher
  /-- The number of the next process. -/
  firstPid : Nat := 1

structure Rig where
  configuration : Configuration
  arguments : Arguments
  registry : Registry
  dumper : Dumper
  command : List String
  host : Supervision.Host
  executed : Nat := 0
  passed : Nat := 0
  closed : Bool := false

namespace Rig

/-! ## Setting up -/

/-- Why a rig is not set up. -/
inductive Fault
  | stopped (s : Configuration.Stop)
  | argument (f : Arguments.Fault)
  | selection (f : Registry.Fault)
  | log (f : Journal.LogFault)
  /-- A value was dropped where a text is needed; the second text is what is done with it. -/
  | dropped (use : String)
  deriving DecidableEq, Repr

def Fault.exception : Fault → Exception
  | stopped s => s.exception
  | argument f => f.exception
  | selection f => f.exception
  | log f => f.exception
  | dropped use => .of .attributeError s!"'list' object has no attribute '{use}'"

/-- What is printed on the standard output before that. -/
def Fault.output : Fault → String
  | stopped s => s.output
  | _ => ""

/-- Store the named values of a command line. -/
def storeArguments (a : Arguments) : List Options.Word → Except Fault Arguments
  | [] => .ok a
  | none :: _ => .error (.dropped "partition")
  | some s :: r => do storeArguments (← (a.add s).mapError .argument) r

/-- Select the tests of a command line. -/
def selectTests (g : Registry) : List Options.Word → Except Fault Registry
  | [] => .ok g
  | none :: _ => .error (.dropped "strip")
  | some s :: r => match g.select s with
    | (.ok _, g) => selectTests g r
    | (.error f, _) => .error (.selection f)

/-- Set a rig up. -/
def set (s : Setup) : Except Fault Rig := do
  let configuration ← (Configuration.ofArgv s.argv).mapError .stopped
  let arguments ← storeArguments Arguments.empty configuration.arguments
  let registry ← selectTests (Registry.ofGroup s.group) configuration.selection
  let journal ← (Journal.openLog s.terminal configuration.verbose s.disk
    configuration.logFile).mapError .log
  return {
    configuration, arguments, registry
    dumper := s.dumper
    command := s.command.getD [s.interpreter, configuration.program.text]
    host :=
      { journal, faults := s.faults, launcher := s.launcher, nextPid := s.firstPid } }

/-! ## State -/

def journal (r : Rig) : Journal := r.host.journal

def onJournal (r : Rig) (f : Journal → Journal) : Rig := { r with host := r.host.onJournal f }

def group (r : Rig) : String := r.registry.group

/-- Tests that ran, and tests that were selected and did not. -/
def count (r : Rig) : Nat := r.executed + r.registry.selection.size

/-- Tests that failed, or were selected and did not run. -/
def failed (r : Rig) : Nat := r.count - r.passed

/-- Success if no test failed. -/
def exitStatus (r : Rig) : ExitStatus := if r.failed = 0 then .success else .error

/-- The kind of process that tests run in. -/
def strategy (r : Rig) : Supervision.Strategy :=
  .choose r.configuration.spawn r.host.faults.canFork

/-! ## Running -/

/-- Run an admitted test, in this process or in one of its own.  A test whose name cannot be written
is not begun. -/
def perform (r : Rig) (test : Identity) (body : Body) : Except Halt Bool × Supervision.Host :=
  if !test.isWritable then (.error (.ofException Exception.unwritable), r.host)
  else if r.configuration.direct then
    let (v, j) := Classifier.run r.dumper test r.configuration.named (body r.arguments)
      r.host.journal
    (v.map (·.passed), { r.host with journal := j })
  else match r.strategy with
    | .fork =>
      Supervision.superviseFork r.configuration r.dumper test (body r.arguments) r.host
    | .spawn => Supervision.superviseSpawn r.configuration r.command test r.host

/-- Count a test that was performed. -/
def tally (r : Rig) : Except Halt Bool × Supervision.Host → Except Halt (Option Bool) × Rig
  | (.ok true, host) => (.ok (some true), { r with host, passed := r.passed + 1 })
  | (.ok false, host) => (.ok (some false), { r with host })
  | (.error h, host) => (.error h, { r with host })

def runKey (r : Rig) (k : Key) (body : Body) : Except Halt (Option Bool) × Rig :=
  match r.registry.enroll k with
  | (.error f, registry) => (.error (.ofException f.exception), { r with registry })
  | (.ok false, registry) => (.ok none, { r with registry })
  | (.ok true, registry) =>
    let r := { r with registry, executed := r.executed + 1 }
    r.tally (r.perform (r.registry.identity k) body)

def run (r : Rig) (subgroup : String) (number : Value) (body : Body) :
    Except Halt (Option Bool) × Rig :=
  match numberOf number with
  | .error f => (.error (.ofException f.exception), r)
  | .ok n => r.runKey (subgroup, n) body

/-- Select a further test. -/
def select (r : Rig) (spec : String) : Except Registry.Fault Identity × Rig :=
  let (test, registry) := r.registry.select spec
  (test, { r with registry })

/-- The value of a name given on the command line, or else a default. -/
def argument (r : Rig) (name : String) (default : Value) : Value :=
  r.arguments.getValue name default

/-- Nothing happens here; processes that were left behind go on. -/
def pause (r : Rig) (order : List Nat) : Rig := { r with host := r.host.elapse order }

/-! ## Ending -/

/-- The line around a summary. -/
def ruler : String := String.ofList (List.replicate 50 '=')

/-- A row of the summary: a tag and a number. -/
def row (tag : String) (n : Nat) : String :=
  tag ++ String.ofList (Text.padStart 6 ' ' (Text.natChars n))

/-- The chunks of the summary. -/
def summaryChunks (r : Rig) : List Chunk :=
  [.line ruler, .line s!"{r.group}: {Text.showNat r.count} tests",
   .tally .green (row "PASS" r.passed), .tally .red (row "FAIL" r.failed), .line ruler]

/-- Print the numbers of tests; the exit code says whether one failed. -/
def printSummary (r : Rig) : Nat × Rig :=
  (r.exitStatus.code,
    r.onJournal fun j => ((r.summaryChunks).foldl Journal.display j).flushConsole)

/-- Report the tests that were selected and did not run, and close the log.  A second time nothing
happens. -/
def close (r : Rig) : Rig :=
  if r.closed then r else
  let r := { r with closed := true }
  r.onJournal fun j =>
    ((r.registry.unrun.map fun t => s!"no such test {t.name}").foldl Journal.error j).close

end Rig

end TestRig
