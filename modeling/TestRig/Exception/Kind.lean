/-!
# TestRig.Exception.Kind — the classes of exceptions

A class has a name, a family and a wording.  The family decides what the harness makes of an
exception, the wording how its arguments become its text.

* `Kind.named` finds the class of a name; an unknown name is an ordinary error.
-/

namespace TestRig

/-- What an exception means to the harness. -/
inductive Family
  /-- A test's own verdict that it failed. -/
  | failure
  /-- A fault of the command line, the suite or the environment: it ends the whole run. -/
  | complaint
  /-- A suite that cannot be loaded. -/
  | loading
  | error
  /-- The user stopped the run. -/
  | interrupt
  /-- Anything else that can be raised; it is not an error. -/
  | departure
  deriving DecidableEq, Repr, Inhabited

/-- How the arguments of an exception become its text. -/
inductive Wording
  /-- Nothing, the argument as it is shown, or all arguments in parentheses. -/
  | plain
  /-- A single argument is quoted. -/
  | quotedKey
  /-- A number, a reason and up to two file names. -/
  | system
  /-- The argument is the message and has to be a text. -/
  | message
  deriving DecidableEq, Repr, Inhabited

structure Kind where
  name : String
  family : Family := .error
  wording : Wording := .plain
  /-- The class belongs to the harness, and a report names it in full. -/
  packaged : Bool := false
  deriving DecidableEq, Repr, Inhabited

namespace Kind

/-! ## Classes that the harness itself raises -/

def typeError : Kind := ⟨"TypeError", .error, .plain, false⟩
def valueError : Kind := ⟨"ValueError", .error, .plain, false⟩
def overflowError : Kind := ⟨"OverflowError", .error, .plain, false⟩
def runtimeError : Kind := ⟨"RuntimeError", .error, .plain, false⟩
def attributeError : Kind := ⟨"AttributeError", .error, .plain, false⟩
def notImplementedError : Kind := ⟨"NotImplementedError", .error, .plain, false⟩
def keyError : Kind := ⟨"KeyError", .error, .quotedKey, false⟩
def systemError : Kind := ⟨"OSError", .error, .system, false⟩
def importError : Kind := ⟨"ImportError", .loading, .plain, false⟩
def moduleNotFoundError : Kind := ⟨"ModuleNotFoundError", .loading, .plain, false⟩
def keyboardInterrupt : Kind := ⟨"KeyboardInterrupt", .interrupt, .plain, false⟩
def systemExit : Kind := ⟨"SystemExit", .departure, .plain, false⟩

def testFailure : Kind := ⟨"TestFailure", .failure, .message, true⟩
def harnessError : Kind := ⟨"HarnessError", .complaint, .plain, true⟩
def invalidArgument : Kind := ⟨"InvalidArgument", .complaint, .plain, true⟩
def duplicateTestIdentity : Kind := ⟨"DuplicateTestIdentity", .complaint, .plain, true⟩
def logOpenFailure : Kind := ⟨"LogOpenFailure", .complaint, .plain, true⟩
def processCreationFailure : Kind := ⟨"ProcessCreationFailure", .complaint, .plain, true⟩
def processControlFailure : Kind := ⟨"ProcessControlFailure", .complaint, .plain, true⟩

/-! ## Classes by name -/

/-- The classes of failures of the operating system. -/
def systemNames : List String :=
  ["OSError", "BlockingIOError", "BrokenPipeError", "ChildProcessError", "ConnectionError",
   "ConnectionAbortedError", "ConnectionRefusedError", "ConnectionResetError", "FileExistsError",
   "FileNotFoundError", "IsADirectoryError", "NotADirectoryError", "InterruptedError",
   "PermissionError", "ProcessLookupError", "TimeoutError"]

/-- The classes that are more than ordinary errors. -/
def known : List Kind :=
  [typeError, valueError, overflowError, runtimeError, attributeError, notImplementedError,
   keyError, importError, moduleNotFoundError, keyboardInterrupt, systemExit, testFailure,
   harnessError, invalidArgument, duplicateTestIdentity, logOpenFailure, processCreationFailure,
   processControlFailure,
   ⟨"GeneratorExit", .departure, .plain, false⟩,
   ⟨"BaseException", .departure, .plain, false⟩,
   ⟨"CustomBase", .departure, .plain, false⟩,
   ⟨"SubFailure", .failure, .message, false⟩]

/-- Other names of classes. -/
def aliases : List (String × String) := [("EnvironmentError", "OSError"), ("IOError", "OSError")]

def named (synonym : String) : Kind :=
  let name := (aliases.lookup synonym).getD synonym
  match known.find? (·.name == name) with
  | some k => k
  | none => ⟨name, .error, if systemNames.contains name then .system else .plain, false⟩

end Kind

end TestRig
