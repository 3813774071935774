import TestRig.Supervision.Child

/-!
# TestRig.Supervision.Host — the system that runs processes

A host has a journal, starts programs and child processes, and waits for them.

* `Calls` says of the calls of one kind, in the order in which they are made, which ones fail, and
  how; `Faults` says this of all calls to the system.
* A wait can also be interrupted by the user; it may have collected an ending then.
* `Course` says when things happen to a process that is waited for.
* `Host.events` records what was done to processes, with what was pending in the sinks.
* A `Launcher` starts a program: it changes the disk and ends, or goes on.
* `Host.strays` are the processes that were left behind.  They go on beside this one: `Host.elapse`.
-/

namespace TestRig.Supervision

/-! ## Calls to the system -/

/-- The calls of one kind in the order in which they are made: what each fails with, if it fails. -/
abbrev Calls (ε : Type) := Nat → Option ε

namespace Calls

def always {ε : Type} (e : Option ε) : Calls ε := fun _ => e

def next {ε : Type} (c : Calls ε) : Option ε := c 0

def later {ε : Type} (c : Calls ε) : Calls ε := fun n => c (n + 1)

/-- No call fails. -/
def Succeed {ε : Type} (c : Calls ε) : Prop := ∀ n, c n = none

end Calls

/-- Why a wait gives no ending. -/
inductive WaitFault
  /-- The user interrupts it.  If the process has ended, it may have been collected before that. -/
  | interrupted (collected : Bool)
  | failed (e : Exception)

/-- When things happen to a process that is waited for, in microseconds from when its time limit is
set, and what happens beside them. -/
structure Course where
  /-- The wait begins. -/
  begins : Nat := 1
  /-- The process has done its work and ends, if it ends. -/
  ends : Nat := 2
  /-- How late each step of the wait comes back. -/
  lags : Nat → Nat := fun _ => 0
  /-- How much of its work the process has done where it has not ended. -/
  done : Nat := 0
  /-- Which of the processes that were left behind go on meanwhile, one step each. -/
  others : List Nat := []
  /-- The milliseconds that a program runs on before it is looked at again to be stopped. -/
  extra : Nat := 0

/-- How a process has ended by a time, if it has. -/
def Course.ended? (k : Course) (s : Option Status) (t : Nat) : Option Status :=
  if k.ends ≤ t then s else none

structure Faults where
  fork : Calls Exception := .always none
  kill : Calls Exception := .always none
  wait : Calls WaitFault := .always none
  /-- Opening a descriptor of a process; if it fails, waiting takes repeated looks. -/
  descriptor : Calls Exception := .always none
  /-- Waiting with a descriptor, which only the user can interrupt. -/
  poll : Calls Unit := .always none
  canFork : Bool := true
  hasDescriptors : Bool := true
  /-- The courses of the processes in the order in which they are made. -/
  courses : Nat → Course := fun _ => {}
  deriving Inhabited

namespace Faults

/-- Make one call to wait for a process. -/
def callWait (f : Faults) : Option WaitFault × Faults := (f.wait.next, { f with wait := f.wait.later })

/-- Wait with a descriptor; is this interrupted? -/
def callPoll (f : Faults) : Bool × Faults :=
  (f.poll.next.isSome, { f with poll := f.poll.later })

end Faults

/-- What was done to a process. -/
inductive Event
  /-- A copy of this process was made, with what was pending. -/
  | forked (pid : Nat) (console : List Chunk) (log : List String)
  | started (pid : Nat)
  /-- A copy of this process ended by itself, with what was pending in it. -/
  | ended (pid : Nat) (console : List Chunk) (log : List String)
  /-- A process was sent the signal that kills it, with what was pending in it. -/
  | killed (pid : Nat) (console : List Chunk) (log : List String)
  /-- The ending of a process was collected. -/
  | reaped (pid : Nat)
  deriving DecidableEq, Repr

/-- Why a program is not started. -/
inductive LaunchFault
  | holdsNul
  | refused (reason : String)
  deriving DecidableEq, Repr

/-- Start a command.  Then the disk after the given milliseconds, or after all that the program does,
and how the program has ended by then, if it has. -/
abbrev Launcher :=
  List String → Disk → Except LaunchFault (Option Nat → Disk × Option Status)

/-- A process that was left behind. -/
inductive Stray
  | copy (c : Child)
  | program (words : List String)
  deriving DecidableEq, Repr

/-- A system that runs processes. -/
structure Host where
  journal : Journal
  faults : Faults := {}
  launcher : Launcher
  nextPid : Nat := 1
  events : List Event := []
  strays : List Stray := []

namespace Host

def onJournal (h : Host) (f : Journal → Journal) : Host := { h with journal := f h.journal }

def log (h : Host) (e : Event) : Host := { h with events := h.events ++ [e] }

def note (h : Host) (s : String) : Host := h.onJournal (·.note s)

/-- End the line of a test that has no outcome. -/
def abandonLine (h : Host) : Host := h.onJournal fun j => (j.write "\n").flush

/-- Write that a test failed, and why. -/
def reportFailure (h : Host) (reason : String) : Host :=
  h.onJournal (Classifier.writeOutcome s!"FAIL ({reason})\n")

/-- What is pending in the log of a journal. -/
def pendingLog (j : Journal) : List String := (j.log.map (·.sink.pending)).getD []

/-! ## Children at work -/

/-- A child does the next part of its work, or else ends. -/
def step (c : Child) (h : Host) : Child × Host :=
  match c.work with
  | a :: work =>
    let (c, journal) := c.act a h.journal
    ({ c with work }, { h with journal })
  | [] =>
    if c.status.isSome && !c.ended then
      ({ c with ended := true }, h.log (.ended c.pid c.console c.pendingLog))
    else (c, h)

/-- A child does some steps. -/
def advance : Nat → Child → Host → Child × Host
  | 0, c, h => (c, h)
  | n + 1, c, h =>
    let (c, h) := step c h
    advance n c h

/-- A child does all of its work and ends. -/
def finish (c : Child) (h : Host) : Child × Host := advance (c.work.length + 1) c h

/-- What a child has done by a time: all of its work if it has ended, or else some of it. -/
def runUntil (k : Course) (t : Nat) (c : Child) (h : Host) : Child × Host :=
  if (k.ended? c.status t).isSome then finish c h else advance (min k.done c.work.length) c h

/-- Leave a process behind. -/
def desert (s : Stray) (h : Host) : Host := { h with strays := h.strays ++ [s] }

/-- Leave a child behind that has not ended. -/
def leave (c : Child) (h : Host) : Host := if c.ended then h else h.desert (.copy c)

/-- What has become of the disk when a program has done all that it does. -/
def diskAfter (launcher : Launcher) (words : List String) (disk : Disk) : Disk :=
  match launcher words disk with
  | .ok life => (life none).1
  | .error _ => disk

/-- The process at an index among those that were left behind goes on: a copy of this process takes a
step, a program does all that it does. -/
def wake (h : Host) (i : Nat) : Host :=
  match h.strays[i]? with
  | none => h
  | some (.copy c) =>
    let (c, h) := step c h
    { h with strays := if c.ended then h.strays.eraseIdx i else h.strays.set i (.copy c) }
  | some (.program words) =>
    { h with
      journal := { h.journal with disk := diskAfter h.launcher words h.journal.disk }
      strays := h.strays.eraseIdx i }

/-- Processes that were left behind go on, in the given order. -/
def elapse (order : List Nat) (h : Host) : Host := order.foldl wake h

/-! ## Calls -/

/-- The course of the next process. -/
def nextCourse (h : Host) : Course := h.faults.courses 0

/-- Make a copy of this process, unless that fails. -/
def fork (h : Host) : Except Exception Nat × Host :=
  let faults := { h.faults with fork := h.faults.fork.later }
  match h.faults.fork.next with
  | some e => (.error e, { h with faults })
  | none => (.ok h.nextPid, { h with
      faults := { faults with courses := fun n => h.faults.courses (n + 1) }
      nextPid := h.nextPid + 1
      events := h.events ++ [.forked h.nextPid h.journal.console.pending (pendingLog h.journal)] })

def start (h : Host) : Nat × Host :=
  (h.nextPid, { h with
    faults := { h.faults with courses := fun n => h.faults.courses (n + 1) }
    nextPid := h.nextPid + 1
    events := h.events ++ [.started h.nextPid] })

/-- Look at the state of a process, or wait for it. -/
def wait (h : Host) : Option WaitFault × Host :=
  (h.faults.callWait.1, { h with faults := h.faults.callWait.2 })

/-- Wait for a child process that has ended. -/
def reap (h : Host) (pid : Nat) : Option WaitFault × Host :=
  match h.wait with
  | (none, h) => (none, h.log (.reaped pid))
  | (some (.interrupted true), h) => (some (.interrupted true), h.log (.reaped pid))
  | r => r

/-- Wait for a child process that has ended; its ending is collected unless it was before. -/
def reapOnce (h : Host) (pid : Nat) (collected : Bool) : Option WaitFault × Host :=
  if collected then h.wait else h.reap pid

/-- Send a process the signal that kills it; what is pending in it is given. -/
def kill (h : Host) (pid : Nat) (console : List Chunk) (log : List String) :
    Option Exception × Host :=
  let faults := { h.faults with kill := h.faults.kill.later }
  match h.faults.kill.next with
  | some e => (some e, { h with faults })
  | none => (none, { h with faults }.log (.killed pid console log))

def killChild (h : Host) (c : Child) : Option Exception × Host :=
  h.kill c.pid c.console c.pendingLog

/-- Open a descriptor of a process to wait with; this can fail, or there are no descriptors. -/
def openDescriptor (h : Host) : Bool × Host :=
  if h.faults.hasDescriptors then
    (h.faults.descriptor.next.isNone,
      { h with faults := { h.faults with descriptor := h.faults.descriptor.later } })
  else (false, h)

end Host

end TestRig.Supervision
