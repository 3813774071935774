import TestRig.Exception.Kind
import TestRig.Value

/-!
# TestRig.Exception — exceptions and their texts

* `Exception.construct` makes an exception from a class and arguments; some classes refuse some
  arguments, and an error of the operating system is sorted into its class by its number.
* `Exception.text` is the text of an exception; making it can itself raise: because of the class's own
  way of making it, of a message that was never set, or of an integer with too many digits.
* `Thrown` is an exception together with the ones it arose from.
-/

namespace TestRig

structure Exception where
  kind : Kind
  args : List Value := []
  notes : List String := []
  /-- What the class's own way of making a text gives, if it has one: the text, or what it raises. -/
  said : Option (Except Exception String) := none
  deriving Inhabited

namespace Exception

/-- An exception with one text as its argument. -/
def of (kind : Kind) (text : String) : Exception := { kind, args := [.text text] }

/-- The exception raised instead of writing an integer of too many digits. -/
def unwritable : Exception :=
  .of .valueError (s!"Exceeds the limit ({Text.showNat Text.maxDigits} digits) for integer string " ++
    "conversion; use sys.set_int_max_str_digits() to increase the limit")

/-- A text, or the exception raised if there is none. -/
def orUnwritable (s : Option String) : Except Exception String :=
  match s with
  | some s => .ok s
  | none => .error unwritable

/-! ## Construction -/

/-- The class of errors that tell how many characters were written before they came up. -/
def blocking : String := "BlockingIOError"

/-- A class whose texts cannot be made, to try out what becomes of its exceptions. -/
def textless : String := "BadStr"

/-- The class of an error of the operating system by its number. -/
def systemClass? (number : Int) : Option String :=
  match number with
  | 11 | 114 | 115 => some blocking
  | 32 | 108 => some "BrokenPipeError"
  | 10 => some "ChildProcessError"
  | 103 => some "ConnectionAbortedError"
  | 111 => some "ConnectionRefusedError"
  | 104 => some "ConnectionResetError"
  | 17 => some "FileExistsError"
  | 2 => some "FileNotFoundError"
  | 21 => some "IsADirectoryError"
  | 20 => some "NotADirectoryError"
  | 4 => some "InterruptedError"
  | 1 | 13 => some "PermissionError"
  | 3 => some "ProcessLookupError"
  | 110 => some "TimeoutError"
  | _ => none

/-- The general class of system errors becomes the class of the whole number that comes first, if
two to five arguments are given. -/
def sortedKind (kind : Kind) (args : List Value) : Kind :=
  match args with
  | number :: _ :: more =>
    if kind.name != "OSError" || 3 < more.length then kind else
    ((number.asInt?.bind systemClass?).map Kind.named).getD kind
  | _ => kind

/-- Why a number given to a blocking error does not count characters: it is not whole, or does not
fit into 64 bits. -/
def countFault? (kind : Kind) (count : Value) : Option Exception :=
  if kind.name != blocking then none else
  match count with
  | .float _ => some (of .typeError "'float' object cannot be interpreted as an integer")
  | .int i =>
    if -9223372036854775808 ≤ i ∧ i ≤ 9223372036854775807 then none
    else some (of .valueError "cannot fit 'int' into an index-sized integer")
  | _ => none

/-- Make an exception of a class from arguments. -/
def construct (kind : Kind) (args : List Value) : Except Exception Exception :=
  match kind.wording with
  | .message => match args with
    | [] => .ok { kind, args := [.text ""] }
    | [m] => .ok { kind, args := [m] }
    | _ => .error (of .typeError (s!"TestFailure.__init__() takes from 1 to 2 positional " ++
        s!"arguments but {args.length + 1} were given"))
  | .system =>
    let kind := sortedKind kind args
    match (args[2]?).bind (countFault? kind) with
    | some e => if args.length ≤ 5 then .error e else .ok { kind, args }
    | none => .ok { kind, args }
  | _ => .ok { kind, args, said :=
      if kind.name == textless then some (.error (of .runtimeError "str failed")) else none }

/-! ## Text -/

/-- The text of arguments: nothing, the only one as it is shown, or all in parentheses. -/
def plainText : List Value → Option String
  | [] => some ""
  | [v] => v.shown
  | vs => Value.reprTuple vs

/-- Does the argument name a file? A number given to a blocking error counts characters. -/
def fileName? (kind : Kind) : Value → Option Value
  | .null => none
  | v => if kind.name == blocking && v.asInt?.isSome then none else some v

/-- The text of an error of the operating system. -/
def systemText (kind : Kind) (args : List Value) : Option String :=
  match args with
  | number :: reason :: more => do
    if 3 < more.length then return ← plainText args
    let head := s!"[Errno {← number.shown}] {← reason.shown}"
    match (more[0]?).bind (fileName? kind) with
    | none => return head
    | some file => match more with
      | [_, _, .null] => return s!"{head}: {← file.repr}"
      | [_, _, other] => return s!"{head}: {← file.repr} -> {← other.repr}"
      | _ => return s!"{head}: {← file.repr}"
  | _ => plainText args

/-- The message of a failure.  A class of failures whose exceptions are made without one has none. -/
def failureMessage (e : Exception) : Except Exception Value :=
  match e.kind.wording with
  | .message => .ok (e.args.headD (.text ""))
  | _ => .error (of .attributeError s!"'{e.kind.name}' object has no attribute 'message'")

/-- The text of a failure is its message, which has to be a text. -/
def messageText (e : Exception) : Except Exception String := do
  match ← e.failureMessage with
  | .text s => return s
  | v => throw (of .typeError s!"__str__ returned non-string (type {v.typeName})")

/-- The text of an exception, or the exception raised instead. -/
def text (e : Exception) : Except Exception String :=
  match e.said, e.kind.family with
  | some said, _ => said
  | none, .failure => e.messageText
  | none, _ => orUnwritable (match e.kind.wording, e.args with
    | .quotedKey, [v] => v.repr
    | .system, args => systemText e.kind args
    | _, args => plainText args)

/-- The reason that an error of the operating system gives, or else its text. -/
def reason (e : Exception) : Except Exception String :=
  match e.args with
  | _ :: r :: more => if r.truthy && more.length ≤ 3 then orUnwritable r.shown else e.text
  | _ => e.text

/-- The arguments in parentheses behind the class, as in a program. -/
def repr (e : Exception) : Except Exception String :=
  orUnwritable (do
    match e.args with
    | [v] => return s!"{e.kind.name}({← v.repr})"
    | vs => return e.kind.name ++ (← Value.reprTuple vs))

end Exception

/-- How an exception is tied to the one it arose from. -/
inductive Link
  | cause
  | context
  deriving DecidableEq, Repr, Inhabited

/-- An exception on its way, with the ones that it arose from, the latest first. -/
structure Thrown where
  exception : Exception
  earlier : List (Link × Exception) := []
  deriving Inhabited

namespace Thrown

def ofException (e : Exception) : Thrown := ⟨e, []⟩

def of (kind : Kind) (text : String) : Thrown := ⟨.of kind text, []⟩

def kind (t : Thrown) : Kind := t.exception.kind

/-- Is it an error that the harness reports and ends with? -/
def isComplaint (t : Thrown) : Bool := t.kind.family == .complaint

/-- The user stopped the run. -/
def interrupted : Thrown := .ofException { kind := .keyboardInterrupt }

end Thrown

end TestRig
