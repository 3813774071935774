import TestRig.Text.Numeral

/-!
# TestRig.Json — documents

Suites are described in JSON.  Here the fields of an object keep their order, numbers are integers,
and writing uses ASCII only.

* `Json.parse` reads a document, `Json.render` writes one.
* `Json.field?` finds a field of an object.
-/

namespace TestRig

inductive Json
  | null
  | bool (b : Bool)
  | int (i : Int)
  | text (s : String)
  | list (items : List Json)
  | object (fields : List (String × Json))
  deriving Repr, Inhabited

namespace Json

/-- The value of a field; of a field given twice, the last value. -/
def field? (name : String) : Json → Option Json
  | object fields => (fields.reverse.find? (·.1 == name)).map (·.2)
  | _ => none

def items : Json → List Json
  | list items => items
  | _ => []

def text? : Json → Option String
  | text s => some s
  | _ => none

def bool? : Json → Option Bool
  | bool b => some b
  | _ => none

/-! ## Reading -/

/-- Drop blanks between the parts of a document. -/
def skipBlanks (cs : List Char) : List Char :=
  cs.dropWhile fun c => c == ' ' || c == '\n' || c == '\r' || c == '\t'

/-- The value of a hexadecimal digit. -/
def hexDigit? (c : Char) : Option Nat :=
  let n := c.toNat
  if 48 ≤ n ∧ n ≤ 57 then some (n - 48)
  else if 97 ≤ n ∧ n ≤ 102 then some (n - 87)
  else if 65 ≤ n ∧ n ≤ 70 then some (n - 55)
  else none

/-- Read four hexadecimal digits. -/
def hexQuad? : List Char → Option (Nat × List Char)
  | a :: b :: c :: d :: r => do
    let ds ← [a, b, c, d].mapM hexDigit?
    return (Text.valueOf 16 ds, r)
  | _ => none

/-- Read the number of a character; two halves make one character beyond the first plane. -/
def readNumbered? (cs : List Char) : Option (Char × List Char) := do
  let (n, r) ← hexQuad? cs
  if 0xD800 ≤ n ∧ n < 0xDC00 then
    match r with
    | '\\' :: 'u' :: r => do
      let (m, r) ← hexQuad? r
      return (Char.ofNat (0x10000 + (n - 0xD800) * 0x400 + (m - 0xDC00)), r)
    | _ => none
  else return (Char.ofNat n, r)

def escape? : Char → Option Char
  | '"' => some '"'
  | '\\' => some '\\'
  | '/' => some '/'
  | 'b' => some '\x08'
  | 'f' => some '\x0c'
  | 'n' => some '\n'
  | 'r' => some '\r'
  | 't' => some '\t'
  | _ => none

/-- Read a text up to its closing quote, in at most `fuel` characters. -/
def readText? : Nat → List Char → Option (List Char × List Char)
  | 0, _ => none
  | fuel + 1, cs =>
    match cs with
    | [] => none
    | '"' :: r => some ([], r)
    | '\\' :: 'u' :: r => do
      let (c, r) ← readNumbered? r
      let (s, r) ← readText? fuel r
      return (c :: s, r)
    | '\\' :: e :: r => do
      let c ← escape? e
      let (s, r) ← readText? fuel r
      return (c :: s, r)
    | c :: r => do
      let (s, r) ← readText? fuel r
      return (c :: s, r)

def readInt? (cs : List Char) : Option (Json × List Char) :=
  let (negative, cs) := match cs with
    | '-' :: r => (true, r)
    | _ => (false, cs)
  let run := cs.takeWhile Char.isDigit
  if run.isEmpty then none else
    let n : Int := Text.valueOf 10 (run.map (·.toNat - 48))
    some (int (if negative then -n else n), cs.drop run.length)

mutual

/-- Read a document; `fuel` bounds its depth and the lengths of its lists. -/
def readValue? : Nat → List Char → Option (Json × List Char)
  | 0, _ => none
  | fuel + 1, cs =>
    match skipBlanks cs with
    | '"' :: r => do
      let (s, r) ← readText? (r.length + 1) r
      return (text (String.ofList s), r)
    | '[' :: r => match skipBlanks r with
      | ']' :: r => some (list [], r)
      | r => do
        let (items, r) ← readItems? fuel r
        return (list items, r)
    | '\x7b' :: r => match skipBlanks r with
      | '\x7d' :: r => some (object [], r)
      | r => do
        let (fields, r) ← readFields? fuel r
        return (object fields, r)
    | 't' :: 'r' :: 'u' :: 'e' :: r => some (bool true, r)
    | 'f' :: 'a' :: 'l' :: 's' :: 'e' :: r => some (bool false, r)
    | 'n' :: 'u' :: 'l' :: 'l' :: r => some (null, r)
    | r => readInt? r

/-- Read the items of a list up to its closing bracket. -/
def readItems? : Nat → List Char → Option (List Json × List Char)
  | 0, _ => none
  | fuel + 1, cs => do
    let (v, r) ← readValue? fuel cs
    match skipBlanks r with
    | ',' :: r => do
      let (vs, r) ← readItems? fuel r
      return (v :: vs, r)
    | ']' :: r => return ([v], r)
    | _ => none

/-- Read the fields of an object up to its closing brace. -/
def readFields? : Nat → List Char → Option (List (String × Json) × List Char)
  | 0, _ => none
  | fuel + 1, cs =>
    match skipBlanks cs with
    | '"' :: r => do
      let (k, r) ← readText? (r.length + 1) r
      match skipBlanks r with
      | ':' :: r => do
        let (v, r) ← readValue? fuel r
        match skipBlanks r with
        | ',' :: r => do
          let (fs, r) ← readFields? fuel r
          return ((String.ofList k, v) :: fs, r)
        | '\x7d' :: r => return ([(String.ofList k, v)], r)
        | _ => none
      | _ => none
    | _ => none

end

def parse (s : String) : Option Json := do
  let cs := s.toList
  let (v, r) ← readValue? (cs.length + 1) cs
  if (skipBlanks r).isEmpty then return v else none

/-! ## Writing -/

/-- A number of sixteen bits behind a backslash. -/
def numbered (n : Nat) : List Char :=
  '\\' :: 'u' :: Text.padStart 4 '0' (Text.numeral 16 false n)

/-- A character of a text. -/
def renderedChar (c : Char) : List Char :=
  let n := c.toNat
  if c = '"' ∨ c = '\\' then ['\\', c]
  else if 32 ≤ n ∧ n < 127 then [c]
  else if n < 0x10000 then numbered n
  else numbered (0xD800 + (n - 0x10000) / 0x400) ++ numbered (0xDC00 + (n - 0x10000) % 0x400)

def renderedText (s : String) : String :=
  String.ofList ('"' :: (s.toList.flatMap renderedChar ++ ['"']))

mutual

def render : Json → String
  | null => "null"
  | bool b => if b then "true" else "false"
  | int i => Text.showInt i
  | text s => renderedText s
  | list items => "[" ++ ",".intercalate (renderAll items) ++ "]"
  | object fields => "\x7b" ++ ",".intercalate (renderFields fields) ++ "\x7d"

def renderAll : List Json → List String
  | [] => []
  | v :: r => render v :: renderAll r

def renderFields : List (String × Json) → List String
  | [] => []
  | (k, v) :: r => (renderedText k ++ ":" ++ render v) :: renderFields r

end

end Json

end TestRig
