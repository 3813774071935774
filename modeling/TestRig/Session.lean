import TestRig.Rig

/-!
# TestRig.Session — a rig at work

A program of tests asks a rig for one thing after another.

* `Answer` is what a rig gives back for a `Request`.
* `Request.serve` answers one request; the rig may change.
* `Rig.session` answers a list of requests and remembers every `Moment`: the request, the answer,
  and the rig before and after.  `Rig.served` is the rig at the end.
-/

namespace TestRig

/-- What a rig gives back. -/
inductive Answer
  | ran (verdict : Except Halt (Option Bool))
  | selected (test : Except Registry.Fault Identity)
  | argument (value : Value)
  | code (n : Nat)
  | status (s : ExitStatus)
  | closed
  | paused

/-- What is raised instead of an answer. -/
def Answer.halt? : Answer → Option Halt
  | .ran (.error h) => some h
  | .selected (.error f) => some (.ofException f.exception)
  | _ => none

def Request.serve (q : Request) (r : Rig) : Answer × Rig :=
  match q with
  | .run subgroup number body =>
    let (v, r) := r.run subgroup number body
    (.ran v, r)
  | .select spec =>
    let (t, r) := r.select spec
    (.selected t, r)
  | .argument name default => (.argument (r.argument name default), r)
  | .summary =>
    let (n, r) := r.printSummary
    (.code n, r)
  | .exitStatus => (.status r.exitStatus, r)
  | .close => (.closed, r.close)
  | .pause order => (.paused, r.pause order)

/-- A request with its answer, and the rig before and after it. -/
structure Moment where
  before : Rig
  request : Request
  answer : Answer
  after : Rig

namespace Rig

def moment (r : Rig) (q : Request) : Moment := ⟨r, q, (q.serve r).1, (q.serve r).2⟩

/-- The moments of a list of requests. -/
def session (r : Rig) : List Request → List Moment
  | [] => []
  | q :: qs => r.moment q :: (r.moment q).after.session qs

/-- The rig behind a list of requests. -/
def served (r : Rig) (qs : List Request) : Rig := qs.foldl (fun r q => (q.serve r).2) r

/-- The key of a test that would be admitted now. -/
def admitted? (r : Rig) (subgroup : String) (number : Value) : Option Key :=
  match numberOf number with
  | .error _ => none
  | .ok n => match r.registry.enroll (subgroup, n) with
    | (.ok true, _) => some (subgroup, n)
    | _ => none

end Rig

namespace Moment

/-- The key of the test that was admitted at this moment. -/
def admitted? (m : Moment) : Option Key :=
  match m.request with
  | .run subgroup number _ => m.before.admitted? subgroup number
  | _ => none

/-- A test ran and returned whether it passed. -/
def returned (passed : Bool) (m : Moment) : Bool :=
  match m.answer with
  | .ran (.ok (some b)) => b == passed
  | _ => false

/-- A test was asked for and nothing was returned: something was raised. -/
def raised (m : Moment) : Bool :=
  match m.answer with
  | .ran (.error _) => true
  | _ => false

/-- The selection left a test out. -/
def skipped (m : Moment) : Bool :=
  match m.answer with
  | .ran (.ok none) => true
  | _ => false

/-- What was written to the console. -/
def shown (m : Moment) : String := m.after.journal.textFrom m.before.journal.console.items.length

end Moment

end TestRig
