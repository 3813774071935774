import TestRig.Binary64.Printed
import TestRig.Text.Pieces
import TestRig.Text.Quoted

/-!
# TestRig.Value — the values that test bodies handle

Test bodies pass values around: arguments of exceptions, messages, expected results.

* `Value.repr` writes a value so that its type can be told, `Value.shown` writes a text as it is.  A
  value that holds an integer of more than `Text.maxDigits` digits is not written.
* `Value.same` is equality: booleans count as 0 and 1, numbers of different types are compared by
  their value, and the order of a dictionary's entries does not matter.
* `Value.truthy` is false for what is empty or zero.
-/

namespace TestRig

inductive Value
  | null
  | bool (b : Bool)
  | int (i : Int)
  | float (x : Binary64)
  | text (s : String)
  | list (items : List Value)
  | dict (entries : List (String × Value))
  deriving Repr, Inhabited

namespace Value

def typeName : Value → String
  | null => "NoneType"
  | bool _ => "bool"
  | int _ => "int"
  | float _ => "float"
  | text _ => "str"
  | list _ => "list"
  | dict _ => "dict"

/-- Put separators between texts. -/
def commaJoined (parts : List String) : String := ", ".intercalate parts

mutual

/-- A value as it would be written in a program. -/
def repr : Value → Option String
  | null => some "None"
  | bool b => some (if b then "True" else "False")
  | int i => Text.showInt? i
  | float x => some x.shown
  | text s => some (Text.quoted s)
  | list items => do return "[" ++ commaJoined (← reprAll items) ++ "]"
  | dict entries => do return "\x7b" ++ commaJoined (← reprEntries entries) ++ "\x7d"

def reprAll : List Value → Option (List String)
  | [] => some []
  | v :: r => do return (← repr v) :: (← reprAll r)

def reprEntries : List (String × Value) → Option (List String)
  | [] => some []
  | (k, v) :: r => do return (Text.quoted k ++ ": " ++ (← repr v)) :: (← reprEntries r)

end

/-- A value as it is shown to a reader: a text as it is. -/
def shown : Value → Option String
  | text s => some s
  | v => repr v

/-- Several values in parentheses; a single one is followed by a comma. -/
def reprTuple : List Value → Option String
  | [v] => do return "(" ++ (← repr v) ++ ",)"
  | vs => do return "(" ++ commaJoined (← reprAll vs) ++ ")"

/-- False for what is empty or zero. -/
def truthy : Value → Bool
  | null => false
  | bool b => b
  | int i => i != 0
  | float (.finite _ m _) => m != 0
  | float _ => true
  | text s => !s.isEmpty
  | list items => !items.isEmpty
  | dict entries => !entries.isEmpty

/-- The integer that a boolean or an integer counts as. -/
def asInt? : Value → Option Int
  | bool b => some (if b then 1 else 0)
  | int i => some i
  | _ => none

/-- Equality of values that hold no others. -/
def sameScalar : Value → Value → Bool
  | null, null => true
  | text s, text t => s == t
  | float x, float y => x.same y
  | float x, v => (asInt? v).any x.equalsInt
  | v, float y => (asInt? v).any y.equalsInt
  | v, w => match asInt? v, asInt? w with
    | some i, some j => i == j
    | _, _ => false

mutual

/-- Equality of values. -/
def same : Value → Value → Bool
  | list xs, w => match w with
    | list ys => sameAll xs ys
    | _ => false
  | dict xs, w => match w with
    | dict ys => xs.length == ys.length && sameEntries xs ys
    | _ => false
  | v, w => sameScalar v w

/-- Equality of lists, item by item. -/
def sameAll : List Value → List Value → Bool
  | [], [] => true
  | x :: xs, y :: ys => same x y && sameAll xs ys
  | _, _ => false

/-- Does every entry have an equal one under the same key? -/
def sameEntries : List (String × Value) → List (String × Value) → Bool
  | [], _ => true
  | (k, v) :: r, ys => (match ys.lookup k with
    | some w => same v w
    | none => false) && sameEntries r ys

end

end Value

end TestRig
