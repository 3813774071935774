import TestRig.Exception

/-!
# TestRig.Exception.Plan — described exceptions

A suite can describe an exception by its class and arguments, the exceptions it arises from and
its notes.  `Plan.build` makes it.  A cause hides the context, and a context can be suppressed.
-/

namespace TestRig.Exception

inductive Plan
  | mk (className : String) (args : List Value) (cause context : Option Plan)
    (suppressed : Option Bool) (notes : List String)
  deriving Inhabited

/-- Is the context left out of reports? A cause leaves it out unless it is said otherwise. -/
def hidesContext (hasCause : Bool) (suppressed : Option Bool) : Bool := suppressed.getD hasCause

/-- The exceptions from which one arises, by its cause and its context. -/
def earlierOf (cause context : Option Thrown) (suppressed : Option Bool) :
    List (Link × Exception) :=
  match cause, context with
  | some c, _ => (.cause, c.exception) :: c.earlier
  | none, some c => if hidesContext false suppressed then [] else (.context, c.exception) :: c.earlier
  | none, none => []

mutual

/-- Make the described exception, or raise what its construction raises. -/
def Plan.build : Plan → Except Thrown Thrown
  | .mk className args cause context suppressed notes =>
    match construct (Kind.named className) args with
    | .error e => .error (.ofException e)
    | .ok e => do
      let context ← buildOption context
      let cause ← buildOption cause
      return ⟨{ e with notes }, earlierOf cause context suppressed⟩

def buildOption : Option Plan → Except Thrown (Option Thrown)
  | none => .ok none
  | some p => match p.build with
    | .ok t => .ok (some t)
    | .error t => .error t

end

end TestRig.Exception
