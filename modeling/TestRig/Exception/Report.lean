import TestRig.Exception

/-!
# TestRig.Exception.Report — exceptions described and reported

* `Thrown.describe` is the one-line description: the class, and the text if there is one.
* `Thrown.report` is the long report: the earliest exception first, each tied to the next by a
  sentence.
* `indented` puts four spaces in front of every line of a report's chunks.
-/

namespace TestRig.Thrown

def reportName (k : Kind) : String := if k.packaged then "isotest.errors." ++ k.name else k.name

/-- The class, followed by the text if there is one. -/
def describe (t : Thrown) : Except Thrown String :=
  match t.exception.text with
  | .error e => .error (ofException e)
  | .ok "" => .ok t.kind.name
  | .ok text => .ok s!"{t.kind.name}: {text}"

/-- The chunks that report one exception: its line, and one chunk for each line of a note. -/
def reportOne (e : Exception) : List String :=
  let text := match e.text with
    | .ok text => text
    | .error _ => "<exception str() failed>"
  let head := if text.isEmpty then reportName e.kind else s!"{reportName e.kind}: {text}"
  (head ++ "\n") ::
    e.notes.flatMap fun note => (Text.lines note.toList).map fun l => String.ofList l ++ "\n"

/-- The sentence between an exception and the one that arose from it. -/
def linkSentence : Link → String
  | .cause => "\nThe above exception was the direct cause of the following exception:\n\n"
  | .context => "\nDuring handling of the above exception, another exception occurred:\n\n"

/-- The chunks of a report, the earliest exception first. -/
def report (t : Thrown) : List String :=
  t.earlier.foldl (fun acc (link, e) => reportOne e ++ linkSentence link :: acc)
    (reportOne t.exception)

/-- One line, indented by four spaces and ended by a newline. -/
def indentedLine (line : List Char) : List Char := ' ' :: ' ' :: ' ' :: ' ' :: (line ++ ['\n'])

/-- The lines of a chunk, whose trailing newlines do not count. -/
def chunkLines (chunk : List Char) : List (List Char) :=
  Text.lines (Text.dropWhileEnd (· == '\n') chunk)

/-- All lines of the chunks, each indented by four spaces. -/
def indented (chunks : List String) : String :=
  String.ofList (chunks.flatMap fun c => (chunkLines c.toList).flatMap indentedLine)

def indentedReport (t : Thrown) : String := indented t.report

end TestRig.Thrown
