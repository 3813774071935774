import TestRig.Supervision.Wait

/-!
# TestRig.Supervision.Fork — a test in a copy of this process

* `Child.ofEnding` is the copy; it does its work beside this process.
* This process waits until the time limit, with a descriptor of the child or by repeated looks at it,
  kills a child that has not ended by then, and collects its ending.
* A child that is running when something is raised is left behind.
* `superviseFork` runs one test and returns whether it passed.
-/

namespace TestRig.Supervision

/-- Judge the ending of a child process. -/
def judge (test : Identity) (pid : Nat) (s : Status) (h : Host) : Except Halt Bool × Host :=
  match s with
  | .killed n => (.ok false, h.reportFailure (Signal.describe n))
  | .exited code => judgeExit test pid code h

/-- Kill a child process at its time limit and collect its ending. -/
def expire (c : Child) (h : Host) : Except Halt Bool × Host :=
  match h.killChild c with
  | (some e, h) => (.error (controlFailure "kill" e), h.leave c)
  | (none, h) => match h.reap c.pid with
    | (none, h) => (.ok false, h.reportFailure timedOut)
    | (some (.interrupted _), h) => passInterrupt h
    | (some (.failed e), h) => (.error (controlFailure "waitpid" e), h)

/-- Errors that only say that a process is gone already. -/
def saysGone (e : Exception) : Bool :=
  isNamed e "ProcessLookupError" || isNamed e "ChildProcessError"

/-- Pass on an interrupt, or an error that came up in its handling. -/
def passUnless (e : Exception) (h : Host) : Except Halt Bool × Host :=
  if saysGone e then passInterrupt h else (.error (.ofException e), h)

/-- Kill a child process after an interrupt and wait for it.  The interrupted wait may have collected
its ending; then there is nothing left to collect. -/
def stopChild (c : Child) (collected : Bool) (h : Host) : Except Halt Bool × Host :=
  match h.killChild c with
  | (some e, h) => passUnless e (h.leave c)
  | (none, h) => match h.reapOnce c.pid collected with
    | (some (.failed e), h) => passUnless e h
    | (_, h) => passInterrupt h

/-- Collect a child process that was seen to have ended, and judge its ending. -/
def collect (test : Identity) (c : Child) (s : Status) (h : Host) : Except Halt Bool × Host :=
  match h.reap c.pid with
  | (none, h) => judge test c.pid s h
  | (some (.interrupted collected), h) => stopChild c collected h
  | (some (.failed e), h) => (.error (controlFailure "waitpid" e), h)

/-- What follows on a wait: the child has done what it does by then, and has ended, is killed, or is
left behind.  `next` is for one that has ended. -/
def conclude (c : Child) (k : Course) (w : Sighting) (h : Host)
    (next : Child → Status → Host → Except Halt Bool × Host) : Except Halt Bool × Host :=
  let (c, h) := Host.runUntil k w.time c { h with faults := w.faults }
  match w.found with
  | .ok (some s) => next c s h
  | .ok none => expire c h
  | .error (.raised x) => (.error x, h.leave c)
  | .error (.interrupted collected) =>
    stopChild c collected (if collected then h.log (.reaped c.pid) else h)

/-- Wait with a descriptor; a child that is seen to have ended is collected then. -/
def awaitDescriptor (test : Identity) (c : Child) (k : Course) (limit : Nat) (h : Host) :
    Except Halt Bool × Host :=
  conclude c k (watch k c.status limit 0 k.begins h.faults) h (collect test)

/-- Wait by repeated looks; the look that sees that the child has ended collects it. -/
def awaitPolling (test : Identity) (c : Child) (k : Course) (limit : Nat) (h : Host) :
    Except Halt Bool × Host :=
  conclude c k (look k c.status limit 0 k.begins h.faults) h fun c s h =>
    judge test c.pid s (h.log (.reaped c.pid))

/-- Wait for a child process up to the time limit; without a limit in seconds it is left behind. -/
def await (cfg : Configuration) (test : Identity) (c : Child) (k : Course) (h : Host) :
    Except Halt Bool × Host :=
  match cfg.seconds with
  | .error f =>
    let (c, h) := Host.advance (min k.done c.work.length) c h
    (.error (.ofException f.exception), h.leave c)
  | .ok _ =>
    let limit := 1000 * cfg.timeout.getD 0
    match h.openDescriptor with
    | (true, h) => awaitDescriptor test c k limit h
    | (false, h) => awaitPolling test c k limit h

/-- Run one test in a copy of this process. -/
def superviseFork (cfg : Configuration) (d : Dumper) (test : Identity) (e : Ending) (h : Host) :
    Except Halt Bool × Host :=
  let h := startLine test (h.note s!"running {test.name} in a forked process")
  let k := h.nextCourse
  match h.fork with
  | (.error e, h) => (.error (creationFailure "fork() failed" test e.reason), h.abandonLine)
  | (.ok pid, h) => await cfg test (.ofEnding pid d test e h.journal) k (h.elapse k.others)

end TestRig.Supervision
