import TestRig.Disk
import TestRig.Verdict

/-!
# TestRig.Journal — where a run is written

Everything about the tests goes to two sinks, the console and the log; diagnostics, notes and the
summary go to the console only.  What is written to a sink waits there until the sink is flushed.

* A `Sink` holds what has been flushed and what is pending.
* The console gets `Chunk`s; `Chunk.render` makes them text, with colours if the console shows them.
* The log is a file to whose end every flush appends.
* Notes are written only by a verbose journal.
* `Journal.Act` is one of the things done to the sinks, `Journal.does` does some of them in order.
-/

namespace TestRig

/-! ## Sinks -/

/-- Flushed and pending items, and all that was ever accepted. -/
structure Sink (α : Type) where
  flushed : List α := []
  pending : List α := []
  accepted : List α := []
  deriving Inhabited

namespace Sink

variable {α : Type}

def put (s : Sink α) (a : α) : Sink α :=
  { s with pending := s.pending ++ [a], accepted := s.accepted ++ [a] }

/-- Pass on what is pending. -/
def flush (s : Sink α) : Sink α := { s with flushed := s.flushed ++ s.pending, pending := [] }

/-- All items in order, flushed or not. -/
def items (s : Sink α) : List α := s.flushed ++ s.pending

@[simp] theorem items_put (s : Sink α) (a : α) : (s.put a).items = s.items ++ [a] := by
  simp [put, items]

@[simp] theorem items_flush (s : Sink α) : s.flush.items = s.items := by simp [flush, items]

theorem flush_of_pending : ∀ {s : Sink α}, s.pending = [] → s.flush = s
  | ⟨f, [], a⟩, _ => by simp [flush]

end Sink

/-! ## The console -/

inductive Color
  | red
  | green
  | yellow
  deriving DecidableEq, Repr

def Color.code : Color → String
  | red => "\x1b[31m"
  | green => "\x1b[32m"
  | yellow => "\x1b[33m"

def Color.reset : String := "\x1b[0m"

def Color.paint (c : Color) (s : String) : String := c.code ++ s ++ Color.reset

/-- A piece of console output. -/
inductive Chunk
  | text (s : String)
  /-- An outcome, whose leading tag is coloured. -/
  | outcome (s : String)
  | line (s : String)
  /-- A line about the handling of processes. -/
  | note (s : String)
  /-- A row of the summary, coloured as a whole. -/
  | tally (color : Color) (s : String)
  deriving DecidableEq, Repr

namespace Chunk

/-- Colour the tag at the beginning of an outcome. -/
def paintTag (s : String) : String :=
  match Text.dropStart? "PASS".toList s.toList with
  | some r => Color.green.paint "PASS" ++ String.ofList r
  | none => match Text.dropStart? "FAIL".toList s.toList with
    | some r => Color.red.paint "FAIL" ++ String.ofList r
    | none => s

/-- The text of a chunk on a console that shows colours or does not. -/
def render (colored : Bool) : Chunk → String
  | text s => s
  | outcome s => if colored then paintTag s else s
  | line s => s ++ "\n"
  | note s => "isotest: " ++ s ++ "\n"
  | tally c s => (if colored then c.paint s else s) ++ "\n"

def renderAll (colored : Bool) (cs : List Chunk) : String := String.join (cs.map (render colored))

end Chunk

/-! ## The journal -/

structure LogFile where
  location : Location
  sink : Sink String := {}
  deriving Inhabited

/-- The console, the log and the disk that it is on. -/
structure Journal where
  colored : Bool := false
  verbose : Bool := false
  console : Sink Chunk := {}
  log : Option LogFile := none
  disk : Disk := Disk.blank
  deriving Inhabited

namespace Journal

/-- Why the log cannot be opened. -/
structure LogFault where
  path : Path
  fault : Disk.Fault
  deriving DecidableEq, Repr

def LogFault.exception (f : LogFault) : Exception :=
  match f.fault with
  | .holdsNul => .of .valueError f.fault.reason
  | _ => .of .logOpenFailure s!"cannot open test log file \"{f.path.text}\": {f.fault.reason}"

/-- A console shows colours if that is asked for, or else if it is a terminal. -/
def showsColors (asked : Option Bool) (terminal : Bool) : Bool := asked.getD terminal

/-- A journal with the log at a path, if one is given. -/
def openLog (colored verbose : Bool) (disk : Disk) : Option Path → Except LogFault Journal
  | none => .ok { colored, verbose, disk }
  | some path => match disk.openToAppend path with
    | .ok (location, disk) => .ok { colored, verbose, disk, log := some { location } }
    | .error fault => .error ⟨path, fault⟩

/-- Write a chunk to the console. -/
def display (j : Journal) (c : Chunk) : Journal := { j with console := j.console.put c }

def record (j : Journal) (s : String) : Journal :=
  { j with log := j.log.map fun l => { l with sink := l.sink.put s } }

def flushConsole (j : Journal) : Journal := { j with console := j.console.flush }

def flushLog (j : Journal) : Journal :=
  match j.log with
  | none => j
  | some l => { j with
      log := some { l with sink := l.sink.flush }
      disk := j.disk.append l.location (String.join l.sink.pending) }

def write (j : Journal) (s : String) : Journal := (j.display (.text s)).record s

def writeOutcome (j : Journal) (s : String) : Journal := (j.display (.outcome s)).record s

/-- Write a diagnostic line to the console. -/
def error (j : Journal) (s : String) : Journal := (j.display (.line s)).flushConsole

/-- Write a note to the console, if notes are wanted. -/
def note (j : Journal) (s : String) : Journal :=
  if j.verbose then (j.display (.note s)).flushConsole else j

def flush (j : Journal) : Journal := j.flushConsole.flushLog

def close (j : Journal) : Journal := { j.flush with log := none }

/-- The text of the console behind its first `n` chunks. -/
def textFrom (j : Journal) (n : Nat) : String :=
  Chunk.renderAll j.colored (j.console.items.drop n)

def consoleText (j : Journal) : String := j.textFrom 0

/-! ## Acts -/

/-- One of the things done to the sinks. -/
inductive Act
  | display (c : Chunk)
  | record (s : String)
  | flushConsole
  | flushLog
  deriving DecidableEq, Repr

def Act.on : Act → Journal → Journal
  | display c, j => j.display c
  | record s, j => j.record s
  | flushConsole, j => j.flushConsole
  | flushLog, j => j.flushLog

def does (j : Journal) (acts : List Act) : Journal := acts.foldl (fun j a => a.on j) j

end Journal

end TestRig
