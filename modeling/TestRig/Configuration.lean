import TestRig.Identity
import TestRig.Options.Help
import TestRig.Path

/-!
# TestRig.Configuration — the options of a run

* `Configuration.grammar` lists the options, `Configuration.ofArgv` reads a command line: its first
  word is the path of the program.
* `Configuration.childArgv` writes the options of a program that is started again for one test.
* `Configuration.seconds` is the time limit in seconds.
* `helpText` and `usage` describe the options.
-/

namespace TestRig

inductive Setting
  | help
  | argument
  | direct
  | logFile
  | select
  | timeout
  | spawn
  | verbose
  | unnamed
  deriving DecidableEq, Repr

/-- The time limit if none is given, in milliseconds. -/
def defaultTimeout : Nat := 5000

/-- The options of a run.  A value that was given as `--` and so dropped appears as `none`. -/
structure Configuration where
  program : Path
  logFile : Option Path := none
  direct : Bool := false
  /-- The time limit of a test in milliseconds. -/
  timeout : Option Nat := some defaultTimeout
  /-- The tests to run, as they were given. -/
  selection : List (Option String) := []
  /-- The named values, as they were given. -/
  arguments : List (Option String) := []
  spawn : Bool := false
  verbose : Bool := false
  /-- Write the name of a test in front of its outcome. -/
  named : Bool := true
  deriving DecidableEq, Repr, Inhabited

namespace Configuration

def grammar : Options.Grammar Setting :=
  [⟨.help, ["-h", "--help"], none, some "show this help message and exit"⟩,
   ⟨.argument, ["-A"], some "NAME=VALUE", some "Set a named test argument (repeatable)"⟩,
   ⟨.direct, ["-d", "--debug", "--run-directly"], none,
    some "Run tests in this process instead of a child process"⟩,
   ⟨.logFile, ["-l", "--log-file"], some "FILE",
    some "Append test results to FILE as well as the console"⟩,
   ⟨.select, ["-r", "--run"], some "GROUP.SUBGROUP.N", some "Run only the given test (repeatable)"⟩,
   ⟨.timeout, ["-t", "--timeout"], some "MS",
    some s!"Per-test timeout in milliseconds (default: {Text.showNat defaultTimeout})"⟩,
   ⟨.spawn, ["-s", "--spawn"], none,
    some "Run each test by re-invoking this program instead of forking"⟩,
   ⟨.verbose, ["-v", "--verbose"], none, some "Verbose output"⟩,
   ⟨.unnamed, ["--no-prefix"], none, none⟩]

/-! ## Help -/

def usage (program : String) : String :=
  Options.tidied (Options.usageText program (Options.usageParts grammar))

def helpText (program : String) : String :=
  let items := Options.helpItems grammar
  Options.tidied (Options.usageText program (Options.usageParts grammar) ++
    "\nRun the tests of this program, each in its own process\n\n" ++
    Options.helpSection (Options.columnFor (items.map (·.1))) "options" items)

/-! ## Reading -/

/-- Why a command line gives no configuration. -/
inductive Stop
  | noProgram
  | help (text : String)
  | misuse (m : Options.Misuse)
  deriving DecidableEq, Repr

def Stop.exception : Stop → Exception
  | noProgram => .of .invalidArgument "empty argument vector"
  | help _ => { kind := .systemExit, args := [.int 0] }
  | misuse m => .of .invalidArgument m.message

def Stop.output : Stop → String
  | help text => text
  | _ => ""

/-- Read a time limit: a numeral with blanks around it. -/
def readTimeout (s : String) : Except String Nat :=
  let cs := Text.trimChars s.toList
  if cs.isEmpty || !cs.all Text.isDigit then .error s!"invalid timeout \"{s}\""
  else (Text.readNat cs).mapError fun _ => s!"invalid _timeout_ms value: {Text.quoted s}"

/-- Refuse a blank value. -/
def readNonBlank (s : String) : Except String String :=
  if Text.isBlankText s then .error "argument must not be empty" else .ok s

/-- Read the value of an option, unless it was dropped. -/
def readValue {β : Type} (u : Options.Use Setting) (read : String → Except String β) :
    Except Stop (Option β) :=
  match u.value with
  | none => .ok none
  | some s => match read s with
    | .ok b => .ok (some b)
    | .error reason => .error (.misuse (.badValue u.entry.title reason))

def apply (c : Configuration) (u : Options.Use Setting) : Except Stop Configuration :=
  match u.entry.meaning with
  | .help => .error (.help (helpText c.program.name))
  | .argument => .ok { c with arguments := c.arguments ++ [u.value] }
  | .direct => .ok { c with direct := true }
  | .logFile => do
    return { c with logFile := (← readValue u readNonBlank).map Path.ofString }
  | .select => do
    return { c with selection := c.selection ++ [← readValue u readNonBlank] }
  | .timeout => do
    return { c with timeout := ← readValue u readTimeout }
  | .spawn => .ok { c with spawn := true }
  | .verbose => .ok { c with verbose := true }
  | .unnamed => .ok { c with named := false }

/-- The words left over make a command line wrong. -/
def refuseExtras (c : Configuration) : List Options.Word → Except Stop Configuration
  | [] => .ok c
  | ws => .error (.misuse (.unrecognized (ws.map (·.getD ""))))

/-- Read the options behind a program's path. -/
def ofWords (program : Path) (words : List Options.Word) : Except Stop Configuration := do
  let reading := Options.read grammar false words
  let c ← reading.act Stop.misuse apply { program }
  c.refuseExtras reading.extras

/-- Read a command line: the path of the program and its options. -/
def ofArgv : List String → Except Stop Configuration
  | [] => .error .noProgram
  | program :: words => ofWords (Path.ofString program) (words.map some)

/-! ## The time limit -/

/-- Why there is no time limit in seconds. -/
inductive TimeFault
  /-- The number of milliseconds is beyond all floating-point numbers. -/
  | tooLarge
  /-- The value was dropped. -/
  | dropped
  deriving DecidableEq, Repr

def TimeFault.exception : TimeFault → Exception
  | tooLarge => .of .overflowError "int too large to convert to float"
  | dropped => .of .typeError "unsupported operand type(s) for /: 'list' and 'float'"

def seconds (c : Configuration) : Except TimeFault Binary64 :=
  match c.timeout with
  | none => .error .dropped
  | some ms => match Binary64.ofInt? ms with
    | some x => .ok (x.dividedBy 1000)
    | none => .error .tooLarge

/-! ## Starting the program again -/

def timeoutText (c : Configuration) : String :=
  match c.timeout with
  | some ms => Text.showNat ms
  | none => "[]"

/-- The options of a program that runs exactly one test in its own process. -/
def childArgv (c : Configuration) (test : Identity) : List Options.Word :=
  (match c.logFile with
    | some p => [some "-l", some p.text]
    | none => []) ++
  c.arguments.flatMap (fun a => [some "-A", a]) ++
  [some "-t", some c.timeoutText, some "-d", some "--no-prefix", some "-r", some test.name]

end Configuration

end TestRig
