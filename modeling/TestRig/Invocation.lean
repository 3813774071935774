import TestRig.Loader
import TestRig.Program

/-!
# TestRig.Invocation — the command that runs a suite

The command takes options of its own, the name of a suite and the options of the run, which are
passed on as they are.

* `Invocation.ofArgv` reads the command line, `helpText` describes it.
* `Invocation.run` loads the suite, runs it and prints the summary, if it is wanted.
-/

namespace TestRig

structure Invocation where
  /-- The group of the tests, if it is given; it can be given by a value that is dropped. -/
  group : Option Options.Word := none
  summary : Bool := true
  suite : String := ""
  options : List String := []
  deriving DecidableEq, Repr, Inhabited

namespace Invocation

inductive Setting
  | help
  | group
  | noSummary
  | version
  deriving DecidableEq, Repr

def program : String := "isotest"

def versionText : String := "isotest 0.1.0\n"

def grammar : Options.Grammar Setting :=
  [⟨.help, ["-h", "--help"], none, some "show this help message and exit"⟩,
   ⟨.group, ["--group"], some "GROUP",
    some "Group name of the tests (default: module name of SUITE)"⟩,
   ⟨.noSummary, ["--no-summary"], none, some "Do not print the pass/fail summary"⟩,
   ⟨.version, ["--version"], none, some "Show program's version number and exit"⟩]

/-- What stands behind the options. -/
def positionals : List (String × String) :=
  [("suite", "Python file or module, optionally followed by ':FUNCTION' " ++
      s!"(default function: {Loader.defaultFunction})"),
   ("options", "Harness options (see below)")]

def usage : String :=
  Options.tidied (Options.usageText program (Options.usageParts grammar ++ ["suite", "..."]))

def helpText : String :=
  let items := Options.helpItems grammar
  let column := Options.columnFor ((positionals ++ items).map (·.1))
  Options.tidied (
    Options.usageText program (Options.usageParts grammar ++ ["suite", "..."]) ++
    "\nisotest - Run a test suite with each test in its own process\n\n" ++
    Options.helpSection column "positional arguments" positionals ++ "\n" ++
    Options.helpSection column "options" items ++ "\n" ++
    Configuration.helpText "isotest SUITE")

/-! ## Reading -/

/-- Why the command line is no invocation. -/
inductive Stop
  | help
  | version
  | misuse (m : Options.Misuse)
  deriving DecidableEq, Repr

def Stop.code : Stop → Int
  | misuse _ => 2
  | _ => 0

def Stop.output : Stop → String
  | help => helpText
  | version => versionText
  | misuse _ => ""

def Stop.message : Stop → String
  | misuse m => usage ++ s!"{program}: error: {m.message}\n"
  | _ => ""

/-- The exception raised for it. -/
def Stop.thrown (s : Stop) : Thrown := .ofException { kind := .systemExit, args := [.int s.code] }

def apply (i : Invocation) (u : Options.Use Setting) : Except Stop Invocation :=
  match u.entry.meaning with
  | .help => .error .help
  | .group => .ok { i with group := some u.value }
  | .noSummary => .ok { i with summary := false }
  | .version => .error .version

/-- The separator between options and other words. -/
def separator : Options.Word := some "--"

/-- Take the suite and the options of the run from the words behind the command's own options.  One
separator in front of the suite, or else directly behind it, is dropped. -/
def takeSuite (i : Invocation) : List Options.Word → Option Invocation
  | [] => none
  | w :: r =>
    if w = separator then
      match r with
      | [] => none
      | s :: r => some { i with suite := s.getD "", options := r.map (·.getD "") }
    else
      let r := if r.head? = some separator then r.drop 1 else r
      some { i with suite := w.getD "", options := r.map (·.getD "") }

def ofArgv (argv : List String) : Except Stop Invocation := do
  let reading := Options.read grammar true (argv.map some)
  let i ← reading.act Stop.misuse apply {}
  match i.takeSuite reading.rest with
  | none => throw (.misuse (.missing ["suite", "options"]))
  | some i =>
    if reading.extras.isEmpty then return i
    else throw (.misuse (.unrecognized (reading.extras.map (·.getD ""))))

/-- The log of the run, if one is asked for. -/
def logFile? (i : Invocation) : Option Path :=
  match Configuration.ofArgv (i.suite :: i.options) with
  | .ok c => c.logFile
  | .error _ => none

/-- The paths that a run looks at: those of its suite, and the log with the directories above it. -/
def paths (i : Invocation) : List String :=
  Loader.paths i.suite ++
    match i.logFile? with
    | none => []
    | some p => (List.range (p.parts.length + 1)).map fun k => { p with parts := p.parts.take k }.text

/-! ## Running -/

/-- All that the command runs in. -/
structure Surroundings where
  interpreter : String
  terminal : Bool := false
  disk : Disk := Disk.blank
  faults : Supervision.Faults := {}
  /-- The programs that can be started. -/
  launcher : Supervision.Launcher

/-- The group of the tests: the given one, unless it is empty, or else the suite's own. -/
def groupName (i : Invocation) (default : String) : String :=
  match i.group with
  | some (some g) => if g.isEmpty then default else g
  | _ => default

/-- The command that runs one test of a suite again. -/
def command (i : Invocation) (interpreter group : String) : List String :=
  [interpreter, "-m", "isotest_cli.main", "--group", group, "--no-summary", i.suite]

/-- The setup of the rig for a suite's tests. -/
def setup (i : Invocation) (s : Surroundings) (group : String) : Setup :=
  { group
    argv := i.suite :: i.options
    command := some (i.command s.interpreter group)
    interpreter := s.interpreter
    terminal := s.terminal
    disk := s.disk
    faults := s.faults
    launcher := s.launcher }

/-- The text printed when the user stops the run. -/
def interruptedText : String :=
  "\n" ++ Color.yellow.paint "Test execution interrupted by user" ++ "\n"

/-- End a report with something raised: interrupts, complaints and suites that cannot be loaded
make the exit code 1, anything else leaves the program. -/
def endWith (report : Report) (h : Halt) : Report :=
  match h with
  | .left _ => { report with exit := .error h }
  | .raised t => match t.kind.family with
    | .interrupt => { report with exit := .ok ExitStatus.error.code, message := interruptedText }
    | .complaint | .loading => report.complain t Color.red.paint
    | _ => { report with exit := .error h }

/-- Run the steps of a suite. -/
def runSuite (i : Invocation) (s : Surroundings) (group : String) (steps : List Step) : Report :=
  match Rig.set (i.setup s group) with
  | .error f =>
    endWith { exit := .ok 0, output := f.output, disk := s.disk } (.ofException f.exception)
  | .ok rig =>
    let done := runSteps steps rig
    let rig := done.rig.close
    match done.halt with
    | some h =>
      endWith { exit := .ok 0, answers := done.answers, disk := rig.journal.disk, rig := some rig } h
    | none =>
      let (code, rig) := if i.summary then rig.printSummary else (rig.exitStatus.code, rig)
      { exit := .ok code, answers := done.answers, disk := rig.journal.disk, rig := some rig }

def run (argv : List String) (s : Surroundings) : Report :=
  match ofArgv argv with
  | .error stop =>
    { exit := .error (.raised stop.thrown), output := stop.output, message := stop.message
      disk := s.disk }
  | .ok i => match Loader.load s.disk i.suite with
    | .error f => endWith { exit := .ok 0, disk := s.disk } (.raised f.thrown)
    | .ok (group, steps) => i.runSuite s (i.groupName group) steps

end Invocation

end TestRig
