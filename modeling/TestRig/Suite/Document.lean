import TestRig.Classifier
import TestRig.Json

/-!
# TestRig.Suite.Document — suites described by documents

* A value is itself; a floating-point number and a dictionary are objects with one field, `$f` or
  `$d`.
* An exception is an object: its class, its arguments, its cause and context, its notes.
* A body and a dumper are lists that begin with their kind; so is a step.
* A suite is an object: its functions, its values, what loading it raises.
-/

namespace TestRig

open Json (field?)

mutual

def Value.ofJson : Json → Value
  | .null => .null
  | .bool b => .bool b
  | .int i => .int i
  | .text s => .text s
  | .list items => .list (Value.ofJsonList items)
  | .object [("$f", .text s)] => .float ((Binary64.read? s).getD .nan)
  | .object [("$d", .object fields)] => .dict (Value.ofJsonFields fields)
  | .object fields => .dict (Value.ofJsonFields fields)

def Value.ofJsonList : List Json → List Value
  | [] => []
  | j :: r => Value.ofJson j :: Value.ofJsonList r

def Value.ofJsonFields : List (String × Json) → List (String × Value)
  | [] => []
  | (k, j) :: r => (k, Value.ofJson j) :: Value.ofJsonFields r

end

def Value.allOfJson (j : Json) : List Value := Value.ofJsonList j.items

def Json.texts (j : Json) : List String := j.items.filterMap Json.text?

/-- The exception that a document describes, looking at most `fuel` exceptions deep. -/
def Exception.Plan.ofJsonWithin : Nat → Json → Exception.Plan
  | 0, _ => .mk "Exception" [] none none none []
  | fuel + 1, j =>
    .mk (((field? "type" j).bind Json.text?).getD "Exception")
      (((field? "args" j).map Value.allOfJson).getD [])
      ((field? "cause" j).map (Exception.Plan.ofJsonWithin fuel))
      ((field? "context" j).map (Exception.Plan.ofJsonWithin fuel))
      ((field? "suppress" j).bind Json.bool?)
      (((field? "notes" j).map Json.texts).getD [])

/-- The depth to which exceptions are described. -/
def Exception.Plan.maxDepth : Nat := 1000

def Exception.Plan.ofJson (j : Json) : Exception.Plan := .ofJsonWithin maxDepth j

def Deed.ofJson? (j : Json) : Option Deed :=
  match j.items with
  | [.text "pass"] => some .pass
  | .text "return" :: _ => some .pass
  | .text "fail" :: args => some (.fail (Value.ofJsonList args))
  | .text "failfmt" :: .text template :: values =>
    some (.failFormat template (Value.ofJsonList values))
  | [.text "raise", plan] => some (.raise (.ofJson plan))
  | [.text "expect", .list [.text name], want] => some (.expect name .null (.ofJson want))
  | [.text "expect", .list [.text name, default], want] =>
    some (.expect name (.ofJson default) (.ofJson want))
  | [.text "exit", .int code] => some (.exit code)
  | [.text "signal", .int n] => some (.signal n)
  | [.text "sleep"] => some .sleep
  | _ => none

/-- The body that a document describes; an unknown one does nothing. -/
def Body.ofJson (j : Json) : Body := ((Deed.ofJson? j).getD .pass).body

def Dumper.ofJson (j : Json) : Dumper :=
  Dumper.ofPlan (match j.items with
    | [.text "text", .text s] => some (.text s)
    | [.text "describe"] => some .describe
    | [.text "traceback"] => some .report
    | [.text "raise", plan] => some (.raise (.ofJson plan))
    | _ => none)

/-- What a described exception raises: itself, or what its construction raises. -/
def Exception.Plan.thrown (p : Exception.Plan) : Thrown :=
  match p.build with
  | .ok t => t
  | .error t => t

def Request.ofJson? (j : Json) : Option Request :=
  match j.items with
  | [.text "run", .text subgroup, number, body] =>
    some (.run subgroup (.ofJson number) (Body.ofJson body))
  | [.text "select", .text spec] => some (.select spec)
  | [.text "argument", .list [.text name]] => some (.argument name .null)
  | [.text "argument", .list [.text name, default]] => some (.argument name (.ofJson default))
  | [.text "argument", .text name] => some (.argument name .null)
  | [.text "argument", .text name, default] => some (.argument name (.ofJson default))
  | [.text "summary"] => some .summary
  | [.text "exit_status"] => some .exitStatus
  | [.text "close"] => some .close
  | _ => none

def Step.ofJson? (j : Json) : Option Step :=
  match j.items with
  | [.text "raise", plan] => some (.raise (Exception.Plan.ofJson plan).thrown)
  | _ => (Request.ofJson? j).map .ask

def Step.allOfJson (j : Json) : List Step := j.items.filterMap Step.ofJson?

def Json.fields : Json → List (String × Json)
  | .object fields => fields
  | _ => []

def Suite.ofJson (j : Json) : Suite :=
  { functions := (((field? "functions" j).map Json.fields).getD []).map fun (name, steps) =>
      (name, Step.allOfJson steps)
    values := (((field? "values" j).map Json.fields).getD []).map (·.1)
    failure := (field? "import_error" j).map fun p => (Exception.Plan.ofJson p).thrown }

/-- What a document puts on a disk: a file, a directory, or a suite. -/
def Node.ofJson : Json → Node
  | .text s => .file s false
  | .object fields => .suite (Suite.ofJson (.object fields))
  | _ => .directory

/-- What a file with a text is on a disk: a suite, if the text describes one. -/
def Node.ofText (s : String) : Node :=
  match Json.parse s with
  | some (.object fields) => .suite (Suite.ofJson (.object fields))
  | _ => .file s false

/-- A disk with the files that a document lists, of which some are executable. -/
def Disk.ofJson (files : Json) (executables : List String) : Disk :=
  executables.foldl Disk.allowExecution
    (files.fields.foldl (fun d (name, j) => d.place name (Node.ofJson j)) Disk.blank)

end TestRig
