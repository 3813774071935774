import TestRig.Disk

/-!
# TestRig.Loader — finding suites

A suite is named by a target and, behind a colon, a function.  A target that ends in `.py` is a
file; any other target is a dotted name of a module in the working directory, which stands in a
file or is a directory.

* `splitSuite` cuts the name, `load` finds the module and the function.
* The group of the tests is the name of the file or the last part of the dotted name.
-/

namespace TestRig.Loader

/-- The function that is run if none is named. -/
def defaultFunction : String := "register"

/-- Cut the name of a suite into target and function.  A colon at the end, or in front of a slash or
backslash, does not cut it. -/
def splitSuite (suite : String) : String × String :=
  match Text.cutLast ':' suite.toList with
  | some (target, c :: r) =>
    if c = '\\' ∨ c = '/' then (suite, defaultFunction)
    else (String.ofList target, String.ofList (c :: r))
  | _ => (suite, defaultFunction)

/-- The ending of a file that is a module. -/
def suffix : List Char := ['.', 'p', 'y']

/-- Is the target a file? -/
def namesFile (target : String) : Bool := target.toList.drop (target.length - 3) == suffix

/-- The group of a target's tests. -/
def groupOf (target : String) : String :=
  if namesFile target then (Path.ofString target).stem
  else match Text.cutLast '.' target.toList with
    | some (_, last) => String.ofList last
    | none => target

inductive Fault
  | noFile (target : String)
  | holdsNul
  | relativeName (name : String)
  | emptyName
  | noModule (name : String)
  | notPackage (name parent : String)
  | raised (t : Thrown)
  | noFunction (target function : String)
  deriving Inhabited

def Fault.thrown : Fault → Thrown
  | noFile target => .of .importError s!"no such suite file \"{target}\""
  | holdsNul => .of .valueError "lstat: embedded null character in path"
  | relativeName name => .of .typeError
      s!"the 'package' argument is required to perform a relative import for {Text.quoted name}"
  | emptyName => .of .valueError "Empty module name"
  | noModule name => .of .moduleNotFoundError s!"No module named {Text.quoted name}"
  | notPackage name parent => .of .moduleNotFoundError
      s!"No module named {Text.quoted name}; {Text.quoted parent} is not a package"
  | raised t => t
  | noFunction target function =>
    .of .importError s!"suite \"{target}\" has no function \"{function}\""

/-- The module that a file holds; a text holds an empty one. -/
def moduleOf? : Node → Option Suite
  | .suite s => some s
  | .file _ _ => some {}
  | _ => none

def execute (s : Suite) : Except Fault Suite :=
  match s.failure with
  | some t => .error (.raised t)
  | none => .ok s

/-- Load the module in a file. -/
def loadFile (d : Disk) (target : String) : Except Fault Suite :=
  if target.contains '\x00' then .error .holdsNul else
  match (d.node? (d.resolve (Path.ofString target))).bind moduleOf? with
  | some s => execute s
  | none => .error (.noFile target)

/-- A module that was found, with its directory, if it is a package. -/
structure Found where
  suite : Suite
  directory : Option Location

/-- What stands under a name in a directory.  The name is one entry, whatever it holds. -/
def childOf? (d : Disk) (l : Location) (name : String) : Option Node :=
  if name.contains '/' || name == "." || name == ".." || name.isEmpty then none
  else d.node? (l ++ [name])

/-- Find a module in a directory: a package with a module of its own, a file, or a directory. -/
def find? (d : Disk) (l : Location) (name : String) : Option Found :=
  let directory := match childOf? d l name with
    | some .directory => some (l ++ [name])
    | _ => none
  match directory.bind fun l => (childOf? d l "__init__.py").bind moduleOf? with
  | some s => some ⟨s, directory⟩
  | none => match (childOf? d l (name ++ String.ofList suffix)).bind moduleOf? with
    | some s => some ⟨s, none⟩
    | none => directory.map fun l => ⟨{}, some l⟩

/-- Load the modules of a dotted name one after the other: `done` is the name of the package that
`l` is the directory of, `parts` are the names still to be loaded. -/
def loadParts (d : Disk) : String → Option Location → List String → Except Fault Suite
  | _, _, [] => .error .emptyName
  | done, directory, part :: more =>
    let name := if done.isEmpty then part else done ++ "." ++ part
    match directory with
    | none => .error (.notPackage name done)
    | some l => match find? d l part with
      | none => .error (.noModule name)
      | some found => do
        let s ← execute found.suite
        match more with
        | [] => return s
        | _ => loadParts d name found.directory more

/-- Load the module of a dotted name. -/
def loadDotted (d : Disk) (name : String) : Except Fault Suite :=
  if name.toList.head? = some '.' then .error (.relativeName name)
  else if name.isEmpty then .error .emptyName
  else loadParts d "" (some d.home) ((Text.splitAt '.' name.toList).map String.ofList)

def loadModule (d : Disk) (target : String) : Except Fault Suite :=
  if namesFile target then loadFile d target else loadDotted d target

/-- The paths below a directory at which the modules of a dotted name can stand. -/
def dottedPaths (directory : String) : List String → List String
  | [] => []
  | part :: more =>
    let here := directory ++ part
    [here, here ++ String.ofList suffix, here ++ "/__init__.py"] ++ dottedPaths (here ++ "/") more

/-- The paths that loading a suite looks at. -/
def paths (suite : String) : List String :=
  let (target, _) := splitSuite suite
  if namesFile target then [target]
  else dottedPaths "" ((Text.splitAt '.' target.toList).map String.ofList)

/-- Load a suite: its group and its steps. -/
def load (d : Disk) (suite : String) : Except Fault (String × List Step) := do
  let (target, function) := splitSuite suite
  let s ← loadModule d target
  match s.function? function with
  | some steps => return (groupOf target, steps)
  | none => throw (.noFunction target function)

end TestRig.Loader
