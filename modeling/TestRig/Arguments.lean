import TestRig.Exception

/-!
# TestRig.Arguments — named values for test bodies

An assignment `name=value` is cut at its first equals sign; the name is trimmed and must not be
blank, the value is kept as it is.  A later assignment to a name replaces the value in its place.

* `Arguments.add` stores one assignment.
* `Arguments.items` lists names and values in the order of the first assignments.
-/

namespace TestRig

/-- Replace the value of a name, or put the pair at the end. -/
def assign (name value : String) : List (String × String) → List (String × String)
  | [] => [(name, value)]
  | (n, v) :: r => if n = name then (n, value) :: r else (n, v) :: assign name value r

theorem map_fst_assign (name value : String) (items : List (String × String)) :
    (assign name value items).map (·.1) =
      if name ∈ items.map (·.1) then items.map (·.1) else items.map (·.1) ++ [name] := by
  induction items with
  | nil => simp [assign]
  | cons p r ih =>
    obtain ⟨n, v⟩ := p
    by_cases h : n = name
    · simp [assign, h]
    · have h' : ¬ name = n := fun e => h e.symm
      rw [assign, if_neg h, List.map_cons, ih]
      simp only [List.map_cons, List.mem_cons, h', false_or]
      split <;> simp

/-- Names with values, each name once. -/
structure Arguments where
  items : List (String × String) := []
  nodup : (items.map (·.1)).Nodup := by simp

namespace Arguments

def empty : Arguments := ⟨[], List.nodup_nil⟩

instance : Inhabited Arguments := ⟨empty⟩

/-- The only thing that can be wrong with an assignment: its name is blank. -/
structure Fault where
  assignment : String
  deriving DecidableEq, Repr

def Fault.exception (f : Fault) : Exception :=
  .of .invalidArgument s!"missing argument name in \"{f.assignment}\""

/-- The name and the value of an assignment; without an equals sign the value is empty. -/
def readAssignment (s : String) : String × String :=
  let (name, value) := (Text.cutFirst '=' s.toList).getD (s.toList, [])
  (String.ofList (Text.trimChars name), String.ofList value)

def put (a : Arguments) (name value : String) : Arguments where
  items := assign name value a.items
  nodup := by
    rw [map_fst_assign]
    split
    · exact a.nodup
    · rename_i h
      exact List.nodup_append.mpr ⟨a.nodup, by simp, fun x hx y hy e => by
        simp only [List.mem_singleton] at hy
        exact h (hy ▸ e ▸ hx)⟩

def add (a : Arguments) (assignment : String) : Except Fault Arguments :=
  let (name, value) := readAssignment assignment
  if name.isEmpty then .error ⟨assignment⟩ else .ok (a.put name value)

def get? (a : Arguments) (name : String) : Option String := a.items.lookup name

def contains (a : Arguments) (name : String) : Bool := (a.get? name).isSome

/-- The names, in the order of their first assignments. -/
def names (a : Arguments) : List String := a.items.map (·.1)

def size (a : Arguments) : Nat := a.items.length

def getValue (a : Arguments) (name : String) (default : Value) : Value :=
  match a.get? name with
  | some s => .text s
  | none => default

/-- The value of a name that has to be there. -/
def item (a : Arguments) (name : String) : Except Exception String :=
  match a.get? name with
  | some s => .ok s
  | none => .error (.of .keyError name)

def repr (a : Arguments) : String :=
  let parts := a.items.map fun (name, value) => Text.quoted name ++ ": " ++ Text.quoted value
  "ArgumentStore(\x7b" ++ Value.commaJoined parts ++ "\x7d)"

end Arguments

end TestRig
