import TestRig.Exception

/-!
# TestRig.Identity — the names of tests

A test is named by its group, its subgroup and its number.  Within a group the key, subgroup and
number, names it.

* `Identity.name` writes `group.subgroup.number`; a number of too many digits is not written
  (`Identity.isWritable`).
* `Key.before` is the order of keys: subgroups by code points, then numbers.
* `readTestNumber` reads a number as it is given on a command line, `numberOf` takes it from a
  value; `NumberFault` tells what is wrong with it.
-/

namespace TestRig

/-- What names a test within its group: its subgroup and its number. -/
abbrev Key := String × Nat

/-- The name of a test. -/
structure Identity where
  group : String
  subgroup : String
  number : Nat
  deriving DecidableEq, Repr, Inhabited

namespace Key

/-- Subgroups are ordered by code points, tests of one subgroup by their numbers. -/
def before (a b : Key) : Bool := a.1 < b.1 || (a.1 == b.1 && a.2 < b.2)

/-- The order of keys, where equal keys are in order too. -/
def notAfter (a b : Key) : Bool := !before b a

def sort (keys : List Key) : List Key := keys.mergeSort notAfter

end Key

namespace Identity

def key (i : Identity) : Key := (i.subgroup, i.number)

def nameChars (i : Identity) : List Char :=
  i.group.toList ++ '.' :: (i.subgroup.toList ++ '.' :: Text.natChars i.number)

/-- The name `group.subgroup.number`. -/
def name (i : Identity) : String := String.ofList i.nameChars

/-- Only numbers of at most `maxDigits` digits are written. -/
def isWritable (i : Identity) : Bool := i.number < Nat.pow 10 Text.maxDigits

def repr (i : Identity) : String :=
  s!"TestIdentity(group={Text.quoted i.group}, subgroup={Text.quoted i.subgroup}, " ++
    s!"number={Text.showNat i.number})"

/-- Identities are ordered by group, then by key. -/
def before (a b : Identity) : Bool :=
  a.group < b.group || (a.group == b.group && Key.before a.key b.key)

def sort (is : List Identity) : List Identity := is.mergeSort fun a b => !before b a

end Identity

/-! ## Test numbers -/

/-- What is wrong with a test number. -/
inductive NumberFault
  | missing
  | malformed (text : String)
  | numeral (fault : Text.NumeralFault)
  | notInt (type : String)
  | negative (i : Int)
  deriving DecidableEq, Repr

/-- The text about a numeral that is not read. -/
def Text.NumeralFault.exception : Text.NumeralFault → Exception
  | .tooLong n => .of .valueError (s!"Exceeds the limit ({showNat maxDigits} digits) for integer " ++
      s!"string conversion: value has {showNat n} digits; use sys.set_int_max_str_digits() to " ++
      "increase the limit")
  | .valueless s => .of .valueError ("invalid literal for int() with base 10: " ++
      String.ofList ((quoted s).toList.take 200))

def NumberFault.exception : NumberFault → Exception
  | missing => .of .invalidArgument "no test number specified"
  | malformed text => .of .invalidArgument s!"invalid test number \"{text}\""
  | numeral fault => fault.exception
  | notInt type => .of .typeError s!"test number must be an int, not {type}"
  | negative i =>
    if i.natAbs < Nat.pow 10 Text.maxDigits then
      .of .valueError s!"test number must not be negative: {Text.showInt i}"
    else Exception.unwritable

/-- Read a test number: digits with blanks around them. -/
def readTestNumber (s : String) : Except NumberFault Nat :=
  let cs := Text.trimChars s.toList
  if cs.isEmpty then .error .missing
  else if !cs.all Text.isDigit then .error (.malformed (String.ofList cs))
  else (Text.readNat cs).mapError .numeral

/-- The test number that a value is; a boolean is none. -/
def numberOf : Value → Except NumberFault Nat
  | .int (.ofNat n) => .ok n
  | .int i => .error (.negative i)
  | v => .error (.notInt v.typeName)

end TestRig
