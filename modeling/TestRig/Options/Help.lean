import TestRig.Options
import TestRig.Text.Blank

/-!
# TestRig.Options.Help — usage lines and help texts

Texts are laid out for lines of 78 characters.

* `usageText` lists the options; a list that is too long is broken between them.
* `section` lists names and explanations in two columns; the second begins at column 24 at the
  latest, and a name that is too long has a line of its own.
-/

namespace TestRig.Options

def lineWidth : Nat := 78

/-- The farthest beginning of the second column. -/
def secondColumn : Nat := 24

/-- Break parts into lines of at most `width` characters; `used` counts those of the current line
`line`, whose parts are in reverse.  A part that is too long stands alone. -/
def breakParts (width start : Nat) : Nat → List String → List String → List (List String)
  | _, line, [] => if line.isEmpty then [] else [line.reverse]
  | used, line, p :: r =>
    if width < used + 1 + p.length ∧ !line.isEmpty then
      line.reverse :: breakParts width start (start + 1 + p.length) [p] r
    else breakParts width start (used + 1 + p.length) (p :: line) r

/-- Lines of parts, indented by `indent` blanks, of which the first has `first` characters in
front instead. -/
def brokenLines (indent first : Nat) (parts : List String) : List String :=
  (breakParts lineWidth (indent - 1) (first - 1) [] parts).map fun line =>
    " ".intercalate line

def blanks (n : Nat) : String := String.ofList (List.replicate n ' ')

def Entry.usagePart {α : Type} (e : Entry α) : String :=
  let name := e.names.headD ""
  match e.metavar with
  | none => s!"[{name}]"
  | some v => s!"[{name} {v}]"

/-- The usage of a program with the given parts. -/
def usageLines (program : String) (parts : List String) : List String :=
  let whole := " ".intercalate (program :: parts)
  if 7 + whole.length ≤ lineWidth then [whole]
  else if 4 * (7 + program.length) ≤ 3 * lineWidth then
    let indent := 7 + program.length + 1
    match brokenLines indent 7 (program :: parts) with
    | [] => []
    | first :: more => first :: more.map (blanks indent ++ ·)
  else program :: (brokenLines 7 7 parts).map (blanks 7 ++ ·)

/-- Keep at most two newlines of a run of newlines; `seen` counts those just written. -/
def shortenBreaks : Nat → List Char → List Char
  | _, [] => []
  | seen, c :: r =>
    if c = '\n' then (if seen < 2 then c :: shortenBreaks (seen + 1) r else shortenBreaks seen r)
    else c :: shortenBreaks 0 r

/-- A text without long runs of newlines, with no newline in front and one at the end. -/
def tidied (s : String) : String :=
  let cs := (shortenBreaks 0 s.toList).dropWhile (· == '\n')
  String.ofList (Text.dropWhileEnd (· == '\n') cs ++ ['\n'])

def usageText (program : String) (parts : List String) : String :=
  "usage: " ++ "\n".intercalate (usageLines program parts) ++ "\n"

def shownEntries {α : Type} (g : Grammar α) : List (Entry α) := g.filter (·.help.isSome)

def usageParts {α : Type} (g : Grammar α) : List String := (shownEntries g).map (·.usagePart)

/-- The names of an option with its value, as the help shows them. -/
def Entry.invocation {α : Type} (e : Entry α) : String :=
  ", ".intercalate (e.names.map fun n => match e.metavar with
    | none => n
    | some v => s!"{n} {v}")

/-- Break a text at blanks into lines of at most `width` characters. -/
def wrapText (width : Nat) (text : String) : List String :=
  (breakParts (width + 1) 0 0 [] ((Text.splitAt ' ' text.toList).map String.ofList)).map fun line =>
    " ".intercalate line

/-- One entry of a section: its name and its explanation from `column` on. -/
def sectionEntry (column : Nat) (name help : String) : List String :=
  let lines := (wrapText (max (lineWidth - column) 11) help)
  let room := column - 4
  if name.length ≤ room then
    match lines with
    | [] => ["  " ++ name]
    | first :: more =>
      ("  " ++ name ++ blanks (room - name.length) ++ "  " ++ first) ::
        more.map (blanks column ++ ·)
  else ("  " ++ name) :: lines.map (blanks column ++ ·)

/-- A section of the help: a title, and names with explanations. -/
def helpSection (column : Nat) (title : String) (items : List (String × String)) : String :=
  "\n".intercalate ((title ++ ":") :: items.flatMap fun (n, h) => sectionEntry column n h) ++ "\n"

/-- The options that are shown, with their explanations. -/
def helpItems {α : Type} (g : Grammar α) : List (String × String) :=
  g.filterMap fun e => e.help.map fun h => (e.invocation, h)

/-- The beginning of the second column for the given names. -/
def columnFor (names : List String) : Nat :=
  min secondColumn ((names.map fun n => n.length + 2).foldl max 0 + 2)

end TestRig.Options
