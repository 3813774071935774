import TestRig.Text.Digit
import TestRig.Text.Pieces
import TestRig.Text.Quoted

/-!
# TestRig.Options — the grammar of command lines

An option has short names (`-t`) and long names (`--timeout`).  A long name may be cut short as long
as it is clear which one is meant.  A value is the next word, or joined to the name: behind an
equals sign, or directly behind a short name.  Flags with short names can be merged into one word.

Reading a command line takes two steps.

* `markAll` marks every word as an option, a value or a separator; here a word can turn out
  ambiguous, wherever it stands.  Behind the separator `--` there are only values.
* `readMarked` reads the marked words from left to right into the uses of options, up to the first
  fault.  What belongs to no option is left over.

A joined value that is exactly `--` is dropped, and the option is used without a value.
-/

namespace TestRig.Options

/-- A word of a command line; `none` stands for a value that was dropped from an earlier one. -/
abbrev Word := Option String

/-- An option: what it means, its names, the name of its value, if it takes one, and its line in
the help, if it has one. -/
structure Entry (α : Type) where
  meaning : α
  names : List String
  metavar : Option String := none
  help : Option String := none
  deriving Repr

abbrev Grammar (α : Type) := List (Entry α)

variable {α : Type}

/-- All names of an option. -/
def Entry.title (e : Entry α) : String := "/".intercalate e.names

def Entry.isValued (e : Entry α) : Bool := e.metavar.isSome

/-- All names with their options, in the order of the grammar. -/
def Grammar.names (g : Grammar α) : List (List Char × Entry α) :=
  g.flatMap fun e => e.names.map fun n => (n.toList, e)

def Grammar.find? (g : Grammar α) (name : List Char) : Option (Entry α) :=
  (Grammar.names g).lookup name

/-- What is wrong with a command line. -/
inductive Misuse
  | ambiguous (word : String) (candidates : List String)
  | noValue (option : String)
  | ignoredValue (option : String) (value : String)
  | badValue (option : String) (reason : String)
  | missing (names : List String)
  | unrecognized (words : List String)
  deriving DecidableEq, Repr

def Misuse.message : Misuse → String
  | ambiguous word names => s!"ambiguous option: {word} could match " ++ ", ".intercalate names
  | noValue option => s!"argument {option}: expected one argument"
  | ignoredValue option value =>
    s!"argument {option}: ignored explicit argument {Text.quoted value}"
  | badValue option reason => s!"argument {option}: {reason}"
  | missing names => "the following arguments are required: " ++ ", ".intercalate names
  | unrecognized words => "unrecognized arguments: " ++ " ".intercalate words

/-! ## Marking -/

/-- What a word is: an option comes with the name that was found and the text joined to it. -/
inductive Mark (α : Type)
  | value
  | separator
  | unknown
  | option (entry : Entry α) (name : List Char) (joined : Option (List Char))
  deriving Repr

/-- Digits, with at most a newline behind them. -/
def isDigitsToEnd (cs : List Char) : Bool :=
  let r := cs.dropWhile Text.isDecimal
  r.length < cs.length && (r == [] || r == ['\n'])

/-- Does the word look like a negative number? -/
def looksNegative : List Char → Bool
  | '-' :: r => isDigitsToEnd r || match r.dropWhile Text.isDecimal with
    | '.' :: s => isDigitsToEnd s
    | _ => false
  | _ => false

/-- The options that a word with two dashes may mean: those with a name that it begins. -/
def longCandidates (g : Grammar α) (word : List Char) :
    List (List Char × Entry α × Option (List Char)) :=
  let (name, joined) := match Text.cutFirst '=' word with
    | some (a, b) => (a, some b)
    | none => (word, none)
  (Grammar.names g).filterMap fun (n, e) => if name.isPrefixOf n then some (n, e, joined) else none

/-- The options that a word with one dash may mean: the one that its first letter names, with the
rest of the word as its value. -/
def shortCandidates (g : Grammar α) (word : List Char) :
    List (List Char × Entry α × Option (List Char)) :=
  (Grammar.names g).filterMap fun (n, e) =>
    if n == word.take 2 then some (n, e, some (word.drop 2))
    else if word.isPrefixOf n then some (n, e, none) else none

/-- The option that a word names exactly, or up to an equals sign. -/
def spelled? (g : Grammar α) (word : List Char) : Option (Mark α) :=
  match Grammar.find? g word with
  | some e => some (.option e word none)
  | none => do
    let (name, joined) ← Text.cutFirst '=' word
    let e ← Grammar.find? g name
    return .option e name (some joined)

/-- Mark a word that begins with a dash and something behind it. -/
def markDashed (g : Grammar α) (word : List Char) : Except Misuse (Mark α) :=
  match spelled? g word with
  | some m => .ok m
  | none =>
    let candidates := if word.drop 1 |>.head? |> (· == some '-') then longCandidates g word
      else shortCandidates g word
    match candidates with
    | [(n, e, joined)] => .ok (.option e n joined)
    | [] => .ok (if looksNegative word || word.contains ' ' then .value else .unknown)
    | _ => .error (.ambiguous (String.ofList word) (candidates.map fun c => String.ofList c.1))

def mark (g : Grammar α) : Word → Except Misuse (Mark α)
  | none => .ok .value
  | some w => match w.toList with
    | ['-', '-'] => .ok .separator
    | '-' :: c :: r => markDashed g ('-' :: c :: r)
    | _ => .ok .value

/-- A word with its mark. -/
abbrev Marked (α : Type) := Word × Mark α

/-- Mark all words; behind a separator there are only values. -/
def markAll (g : Grammar α) : List Word → Except Misuse (List (Marked α))
  | [] => .ok []
  | w :: r => do
    match ← mark g w with
    | .separator => return (w, .separator) :: r.map fun v => (v, .value)
    | m => return (w, m) :: (← markAll g r)

/-! ## Reading -/

/-- One use of an option, with its value, if it takes one and it was not dropped. -/
structure Use (α : Type) where
  entry : Entry α
  value : Word := none
  deriving Repr

/-- The value of an option, unless it is dropped. -/
def keptValue (cs : List Char) : Word := if cs = ['-', '-'] then none else some (String.ofList cs)

/-- The flags merged into a word, the last option of it and the text joined to that. -/
structure Unmerged (α : Type) where
  flags : List (Entry α) := []
  last : Entry α
  joined : Option (List Char) := none

/-- Take a word apart: `joined` is the text behind the option `e`, which can go on with further
options if `e` is a flag with a short name. -/
def unmerge (g : Grammar α) (short : Bool) (e : Entry α) :
    List Char → Except Misuse (Unmerged α)
  | [] => if e.isValued then .ok { last := e, joined := some [] } else .error (.ignoredValue e.title "")
  | c :: r =>
    if e.isValued then .ok { last := e, joined := some (c :: r) } else
    match if short then Grammar.find? g ['-', c] else none with
    | none => .error (.ignoredValue e.title (String.ofList (c :: r)))
    | some next => match r with
      | [] => .ok { flags := [e], last := next }
      | _ :: _ => do
        let u ← unmerge g true next r
        return { u with flags := e :: u.flags }

/-- Has the name one dash only? -/
def isShort (name : List Char) : Bool := name.drop 1 |>.head? |> (· != some '-')

def unmergeMark (g : Grammar α) (e : Entry α) (name : List Char) :
    Option (List Char) → Except Misuse (Unmerged α)
  | none => .ok { last := e }
  | some joined => unmerge g (isShort name) e joined

/-- What has been read: the uses of options, the words left over, a fault that ended it, and the
words that were not looked at. -/
structure Reading (α : Type) where
  uses : List (Use α) := []
  extras : List Word := []
  fault : Option Misuse := none
  rest : List Word := []

def Reading.withUses (us : List (Use α)) (r : Reading α) : Reading α := { r with uses := us ++ r.uses }

def Reading.withExtra (w : Word) (r : Reading α) : Reading α := { r with extras := w :: r.extras }

/-- The uses of the flags merged into a word. -/
def Unmerged.flagUses (u : Unmerged α) : List (Use α) := u.flags.map fun e => ⟨e, none⟩

/-- Read marked words from left to right.  If `stops`, the first value or separator ends it. -/
def readMarked (g : Grammar α) (stops : Bool) : List (Marked α) → Reading α
  | [] => {}
  | (_, .option e name joined) :: r =>
    match unmergeMark g e name joined with
    | .error m => { fault := some m }
    | .ok u =>
      if !u.last.isValued then
        (readMarked g stops r).withUses (u.flagUses ++ [⟨u.last, none⟩])
      else match u.joined, r with
        | some cs, r => (readMarked g stops r).withUses (u.flagUses ++ [⟨u.last, keptValue cs⟩])
        | none, (v, .value) :: r =>
          (readMarked g stops r).withUses (u.flagUses ++ [⟨u.last, v⟩])
        | none, _ => { fault := some (.noValue u.last.title) }
  | (w, .unknown) :: r => (readMarked g stops r).withExtra w
  | (w, _) :: r =>
    if stops then { rest := w :: r.map (·.1) } else (readMarked g stops r).withExtra w

def read (g : Grammar α) (stops : Bool) (words : List Word) : Reading α :=
  match markAll g words with
  | .error m => { fault := some m }
  | .ok marked => readMarked g stops marked

/-- Act on the uses in order, then on the fault, then on the words left over. -/
def Reading.act {σ ε : Type} (r : Reading α) (misuse : Misuse → ε) (step : σ → Use α → Except ε σ)
    (start : σ) : Except ε σ := do
  let s ← r.uses.foldlM step start
  match r.fault with
  | some m => throw (misuse m)
  | none => return s

end TestRig.Options
