import TestRig.Supervision.Line
import TestRig.Supervision.Quoting

/-!
# TestRig.Supervision.Spawn — a test in a program started for it

* `childCommand` is the command: the one that starts this program again, with the options of a
  program that runs exactly one test.
* This process waits for the program up to the time limit.  A program that goes on then, or while the
  wait is interrupted, is looked at once more and killed if it has not ended.
* A program that is running when something is raised is left behind.
* `superviseSpawn` runs one test and returns whether it passed.
-/

namespace TestRig.Supervision

/-- The command of the program that runs a test. -/
def childCommand (cfg : Configuration) (command : List String) (test : Identity) :
    List Options.Word :=
  command.map some ++ cfg.childArgv test

/-- A program at some time: the disk as it has changed it, and how it has ended, if it has. -/
structure Launched where
  pid : Nat
  words : List String
  disk : Disk
  status : Option Status

namespace Launched

def hasEnded (p : Launched) : Bool := p.status.isSome

/-- The host when a program will not change its disk any more. -/
def settle (p : Launched) (h : Host) : Host := h.onJournal fun j => { j with disk := p.disk }

/-- Leave a program alone; one that has not ended goes on. -/
def leave (p : Launched) (h : Host) : Host :=
  if p.hasEnded then p.settle h else h.desert (.program p.words)

/-- Look whether a program has ended, or wait for one that has.  If there is no such process any more
its ending counts as known. -/
def look (p : Launched) (h : Host) : Except WaitFault Bool × Host :=
  match h.wait with
  | (none, h) => (.ok p.hasEnded, if p.hasEnded then h.log (.reaped p.pid) else h)
  | (some (.failed e), h) =>
    if isNamed e "ChildProcessError" then (.ok true, h) else (.error (.failed e), h)
  | (some f, h) => (.error f, h)

/-- Wait for a killed program.  An interrupt is passed on after one more wait. -/
def collect (p : Launched) (h : Host) (next : Host → Except Halt Bool × Host) :
    Except Halt Bool × Host :=
  match p.look h with
  | (.ok _, h) => next h
  | (.error (.failed e), h) => (.error (.ofException e), h)
  | (.error (.interrupted _), h) => match p.look h with
    | (.error (.failed e), h) => (.error (.ofException e), h)
    | (_, h) => passInterrupt h

/-- Kill a program and wait for it; an error that says it is gone does not count. -/
def kill (p : Launched) (h : Host) (next : Host → Except Halt Bool × Host) :
    Except Halt Bool × Host :=
  let killed := { p with status := some (.killed 9) }
  match h.kill p.pid [] [] with
  | (some e, h) =>
    if isNamed e "ProcessLookupError" then killed.collect (p.settle h) next
    else (.error (.ofException e), p.leave h)
  | (none, h) => killed.collect (p.settle h) next

/-- Stop a program whose ending is not known: it is looked at once more, and killed if it has not
ended.  Errors of that look do not count. -/
def stop (p : Launched) (h : Host) (next : Host → Except Halt Bool × Host) :
    Except Halt Bool × Host :=
  match p.look h with
  | (.ok true, h) => next (p.leave h)
  | (.error (.interrupted _), h) => passInterrupt (p.leave h)
  | (_, h) => p.kill h next

/-- Stop a program after a wait for it was interrupted.  Before that there is one more wait. -/
def stopInterrupted (p : Launched) (h : Host) : Except Halt Bool × Host :=
  match p.look h with
  | (.ok true, h) => passInterrupt (p.leave h)
  | (.error (.failed e), h) => (.error (.ofException e), p.leave h)
  | (_, h) => p.stop h passInterrupt

end Launched

/-- Judge the ending of a program by its number. -/
def judgeReturnCode (test : Identity) (pid : Nat) (code : Int) (h : Host) :
    Except Halt Bool × Host :=
  match describeReturnCode .posix code with
  | .error e => (.error (.ofException e), h)
  | .ok (some reason) => (.ok false, h.reportFailure reason)
  | .ok none => judgeExit test pid code h

/-- Wait for a program up to the time limit of `ms` milliseconds; `life` is what it does. -/
def awaitProgram (test : Identity) (pid : Nat) (words : List String) (k : Course) (ms : Nat)
    (life : Option Nat → Disk × Option Status) (h : Host) : Except Halt Bool × Host :=
  let state (t : Nat) : Launched := ⟨pid, words, (life (some t)).1, (life (some t)).2⟩
  match h.wait with
  | (some (.interrupted _), h) => (state k.extra).stopInterrupted h
  | (some (.failed e), h) =>
    let h := h.desert (.program words)
    if isNamed e "ChildProcessError" then judgeReturnCode test pid 0 h
    else (.error (.ofException e), h)
  | (none, h) => match (state ms).status with
    | some s => judgeReturnCode test pid s.returnCode ((state ms).settle (h.log (.reaped pid)))
    | none => (state (ms + k.extra)).stop h fun h => (.ok false, h.reportFailure timedOut)

/-- Run one test by a program started for it. -/
def superviseSpawn (cfg : Configuration) (command : List String) (test : Identity) (h : Host) :
    Except Halt Bool × Host :=
  let words := (childCommand cfg command test).map (·.getD "[]")
  let h := startLine test (h.note s!"running {test.name}: {commandLine words}")
  match h.launcher words h.journal.disk with
  | .error .holdsNul => (.error (.ofException (.of .valueError "embedded null byte")), h)
  | .error (.refused reason) =>
    (.error (creationFailure "failed to create process" test (.ok reason)), h.abandonLine)
  | .ok life =>
    let k := h.nextCourse
    let (pid, h) := h.start
    match cfg.seconds with
    | .error f => (.error (.ofException f.exception), h.desert (.program words))
    | .ok _ => awaitProgram test pid words k (cfg.timeout.getD 0) life h

end TestRig.Supervision
