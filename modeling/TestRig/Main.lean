import TestRig.Invocation
import TestRig.Suite.Document

/-!
# TestRig.Main — the command line

The command reads the files that a run looks at, runs the suite, and writes the log and the texts of
the report.
-/

namespace TestRig.Main

def isDirectory (name : String) : IO Bool := do
  try
    let _ ← IO.FS.Handle.mk (name ++ "/.") .read
    return true
  catch _ => return false

def readNode? (name : String) : IO (Option Node) := do
  if ← isDirectory name then return some .directory
  try
    return some (Node.ofText (← IO.FS.readFile name))
  catch _ => return none

/-- A disk with all that stands under the names. -/
def readDisk (names : List String) : IO Disk := do
  let mut disk := Disk.blank
  for name in names do
    match ← readNode? name with
    | some node => disk := disk.place name node
    | none => pure ()
  return disk

/-- Append what a run added to a file. -/
def writeLog (name : String) (before after : Option String) : IO Unit := do
  match after with
  | none => pure ()
  | some text =>
    let file ← IO.FS.Handle.mk name .append
    file.putStr (String.ofList (text.toList.drop (before.getD "").length))

/-- The command starts no programs. -/
def launcher : Supervision.Launcher := fun _ _ => .error (.refused "Operation not supported")

/-- The exit code of a run that was left by something raised. -/
def exitCode : Halt → UInt32
  | .left (.exited code) => UInt32.ofNat code
  | .left _ => 1
  | .raised t => match t.kind == Kind.systemExit, t.exception.args with
    | true, [] => 0
    | true, [.int code] => UInt32.ofNat (code % 256).toNat
    | _, _ => 1

/-- The text about something raised that nothing takes care of. -/
def haltText : Halt → String
  | .left _ => ""
  | .raised t => if t.kind == Kind.systemExit then "" else String.join t.report

def command (argv : List String) : IO UInt32 := do
  let stdout ← IO.getStdout
  let stderr ← IO.getStderr
  let names := match Invocation.ofArgv argv with
    | .ok i => i.paths
    | .error _ => []
  let log := match Invocation.ofArgv argv with
    | .ok i => i.logFile?
    | .error _ => none
  let disk ← readDisk names
  let interpreter := (← IO.appPath).toString
  let report := Invocation.run argv { interpreter, terminal := ← stderr.isTty, disk, launcher }
  match log with
  | none => pure ()
  | some path => writeLog path.text (disk.textOf path) (report.disk.textOf path)
  stdout.putStr report.output
  stderr.putStr (report.console ++ report.message)
  match report.exit with
  | .ok code => return UInt32.ofNat code
  | .error h =>
    stderr.putStr (haltText h)
    return exitCode h

end TestRig.Main

def main (argv : List String) : IO UInt32 := TestRig.Main.command argv
