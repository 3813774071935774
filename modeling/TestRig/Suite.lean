import TestRig.Body

/-!
# TestRig.Suite — modules of tests

A suite is a module whose functions are lists of steps: ask the rig for something, or raise an
exception.  A module can also hold values that are no functions, or fail when it is loaded.
-/

namespace TestRig

/-- What a rig is asked for. -/
inductive Request
  | run (subgroup : String) (number : Value) (body : Body)
  | select (spec : String)
  | argument (name : String) (default : Value)
  | summary
  | exitStatus
  | close
  /-- Nothing is asked for; processes that were left behind go on, in the given order. -/
  | pause (order : List Nat)

inductive Step
  | ask (q : Request)
  | raise (t : Thrown)

structure Suite where
  functions : List (String × List Step) := []
  /-- The names of values that are no functions. -/
  values : List String := []
  /-- What loading the module raises. -/
  failure : Option Thrown := none
  deriving Inhabited

/-- The steps of a function of the module. -/
def Suite.function? (s : Suite) (name : String) : Option (List Step) :=
  if s.values.contains name then none else s.functions.lookup name

end TestRig
