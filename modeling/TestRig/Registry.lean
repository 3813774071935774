import TestRig.Identity

/-!
# TestRig.Registry — which tests run

While nothing is selected every test runs.  Once a test is selected only selected tests run; a
selection entry is used up when its test is admitted, so that the entries left at the end name
tests that were asked for and never came.  No test is admitted twice.

* `Registry.select` reads `group.subgroup.number` or `subgroup.number`.
* `Registry.enroll` decides on one test and records it.
* `Registry.unrun` lists what was selected and did not run, in order.
* `KeySet` is a set of keys: a list without repetitions.
-/

namespace TestRig

structure KeySet where
  keys : List Key := []
  nodup : keys.Nodup := by simp

namespace KeySet

def empty : KeySet := ⟨[], List.nodup_nil⟩

instance : Inhabited KeySet := ⟨empty⟩

instance : Membership Key KeySet := ⟨fun s k => k ∈ s.keys⟩

instance (k : Key) (s : KeySet) : Decidable (k ∈ s) := inferInstanceAs (Decidable (k ∈ s.keys))

theorem mem_iff {k : Key} {s : KeySet} : k ∈ s ↔ k ∈ s.keys := Iff.rfl

def insert (s : KeySet) (k : Key) : KeySet :=
  if h : k ∈ s.keys then s else ⟨k :: s.keys, List.nodup_cons.mpr ⟨h, s.nodup⟩⟩

def erase (s : KeySet) (k : Key) : KeySet := ⟨s.keys.erase k, s.nodup.erase k⟩

def size (s : KeySet) : Nat := s.keys.length

/-- The keys in increasing order. -/
def sorted (s : KeySet) : List Key := Key.sort s.keys

@[simp] theorem not_mem_empty (k : Key) : ¬ k ∈ empty := by simp [mem_iff, empty]

@[simp] theorem mem_insert {s : KeySet} {k j : Key} : j ∈ s.insert k ↔ j = k ∨ j ∈ s := by
  unfold insert
  split
  · rename_i h
    exact ⟨Or.inr, fun h' => h'.elim (fun e => e ▸ h) id⟩
  · simp [mem_iff]

@[simp] theorem mem_erase {s : KeySet} {k j : Key} : j ∈ s.erase k ↔ j ≠ k ∧ j ∈ s := by
  simp only [mem_iff, erase]
  exact s.nodup.mem_erase_iff

theorem size_insert_of_not_mem {s : KeySet} {k : Key} (h : k ∉ s) :
    (s.insert k).size = s.size + 1 := by
  have h' : k ∉ s.keys := h
  simp [insert, size, h']

end KeySet

/-- The selection and the tests that have run. -/
structure Registry where
  group : String
  selective : Bool := false
  selection : KeySet := KeySet.empty
  haveRun : KeySet := KeySet.empty
  deriving Inhabited

namespace Registry

/-- Why a test is not selected or not admitted. -/
inductive Fault
  | noNumber (spec : String)
  | number (fault : NumberFault)
  | duplicate (test : Identity)
  deriving DecidableEq, Repr

def Fault.exception : Fault → Exception
  | noNumber spec => .of .invalidArgument s!"no test number specified in \"{spec}\""
  | number fault => fault.exception
  | duplicate test =>
    if test.isWritable then .of .duplicateTestIdentity s!"duplicate test ID {test.name}"
    else Exception.unwritable

/-- A registry in which nothing is selected. -/
def ofGroup (group : String) : Registry := { group }

def identity (r : Registry) (k : Key) : Identity := ⟨r.group, k.1, k.2⟩

/-- Take the registry's own group and a dot off the beginning of a name. -/
def withoutGroup (r : Registry) (name : List Char) : List Char :=
  (Text.dropStart? (r.group.toList ++ ['.']) name).getD name

/-- The key that a specification names: the number follows the last dot. -/
def readSpec (r : Registry) (spec : String) : Except Fault Key :=
  match Text.cutLast '.' (Text.trimChars spec.toList) with
  | none => .error (.noNumber spec)
  | some (name, number) => do
    let n ← (readTestNumber (String.ofList number)).mapError .number
    return (String.ofList (r.withoutGroup (Text.trimChars name)), n)

def choose (r : Registry) (k : Key) : Registry :=
  { r with selective := true, selection := r.selection.insert k }

/-- Read a specification and select the test that it names. -/
def select (r : Registry) (spec : String) : Except Fault Identity × Registry :=
  match r.readSpec spec with
  | .ok k => (.ok (r.identity k), r.choose k)
  | .error f => (.error f, r)

/-- Would the test pass the selection? -/
def isSelected (r : Registry) (k : Key) : Bool := !r.selective || k ∈ r.selection

/-- Use up the selection entry of a key. -/
def consume (r : Registry) (k : Key) : Registry := { r with selection := r.selection.erase k }

/-- Use up the selection entry of a key, if there is a selection. -/
def spend (r : Registry) (k : Key) : Registry := if r.selective then r.consume k else r

def record (r : Registry) (k : Key) : Registry := { r with haveRun := r.haveRun.insert k }

/-- Decide whether a test runs and record it: `false` if the selection leaves it out, an error if
it has run before.  The selection entry is used up in any case. -/
def enroll (r : Registry) (k : Key) : Except Fault Bool × Registry :=
  if !r.isSelected k then (.ok false, r) else
  let r := r.spend k
  if k ∈ r.haveRun then (.error (.duplicate (r.identity k)), r)
  else (.ok true, r.record k)

/-- The tests that were selected and have not run, in order. -/
def unrun (r : Registry) : List Identity := r.selection.sorted.map r.identity

end Registry

end TestRig
