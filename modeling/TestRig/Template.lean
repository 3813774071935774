import TestRig.Exception

/-!
# TestRig.Template — texts with places for values

A directive begins with a percent sign: flags (`-`, `+`, space, `#`, `0`), a width, a precision
after a point, one size letter that has no meaning, and a letter that says how the next value is
written.  `%%` stands for a percent sign.  A star takes the width or the precision from the values.

* `Template.fill` fills all places; the values have to be used up.
* `Fault` lists what can be wrong, `Fault.exception` is the exception raised for it.
-/

namespace TestRig.Template

inductive Fault
  | needsMapping
  | incomplete
  | tooFew
  | tooMany
  | starNotInt
  | widthTooBig
  | precisionTooBig
  | starWidthTooBig
  | starPrecisionTooBig
  | unsupported (c : Char) (index : Nat)
  | notReal (letter : Char) (type : String)
  | notInteger (letter : Char) (type : String)
  | notFloat (type : String)
  | notCharacter
  | characterRange
  | integerTooLarge
  | nanToInteger
  | infinityToInteger
  | tooManyDigits
  | unwritable
  | outOfMemory
  deriving DecidableEq, Repr

def Fault.exception : Fault → Exception
  | needsMapping => .of .typeError "format requires a mapping"
  | incomplete => .of .valueError "incomplete format"
  | tooFew => .of .typeError "not enough arguments for format string"
  | tooMany => .of .typeError "not all arguments converted during string formatting"
  | starNotInt => .of .typeError "* wants int"
  | widthTooBig => .of .valueError "width too big"
  | precisionTooBig => .of .valueError "precision too big"
  | starWidthTooBig => .of .overflowError "Python int too large to convert to C ssize_t"
  | starPrecisionTooBig => .of .overflowError "Python int too large to convert to C int"
  | unsupported c index =>
    let shown := if 31 ≤ c.toNat ∧ c.toNat ≤ 126 then c else '?'
    let hex := String.ofList (Text.numeral 16 false c.toNat)
    .of .valueError s!"unsupported format character '{shown}' (0x{hex}) at index {index}"
  | notReal letter type =>
    .of .typeError s!"%{letter} format: a real number is required, not {type}"
  | notInteger letter type =>
    .of .typeError s!"%{letter} format: an integer is required, not {type}"
  | notFloat type => .of .typeError s!"must be real number, not {type}"
  | notCharacter => .of .typeError "%c requires int or char"
  | characterRange => .of .overflowError "%c arg not in range(0x110000)"
  | integerTooLarge => .of .overflowError "int too large to convert to float"
  | nanToInteger => .of .valueError "cannot convert float NaN to integer"
  | infinityToInteger => .of .overflowError "cannot convert float infinity to integer"
  | tooManyDigits => .of .overflowError "precision too large"
  | unwritable => Exception.unwritable
  | outOfMemory => { kind := Kind.named "MemoryError" }

/-- The options of a directive. -/
structure Directive where
  left : Bool := false
  plus : Bool := false
  blank : Bool := false
  alternate : Bool := false
  zero : Bool := false
  width : Nat := 0
  precision : Option Nat := none
  deriving Repr, Inhabited

/-- The rest of a template with the index of its first character, and the values not used yet. -/
structure Cursor where
  rest : List Char
  index : Nat
  values : List Value
  deriving Inhabited

def Cursor.next (c : Cursor) : Except Fault (Value × Cursor) :=
  match c.values with
  | v :: r => .ok (v, { c with values := r })
  | [] => .error .tooFew

def Cursor.advance (c : Cursor) : Cursor := { c with rest := c.rest.drop 1, index := c.index + 1 }

/-! ## Reading a directive -/

def readFlags : List Char → Nat → Directive → Directive × List Char × Nat
  | '-' :: r, i, d => readFlags r (i + 1) { d with left := true }
  | '+' :: r, i, d => readFlags r (i + 1) { d with plus := true }
  | ' ' :: r, i, d => readFlags r (i + 1) { d with blank := true }
  | '#' :: r, i, d => readFlags r (i + 1) { d with alternate := true }
  | '0' :: r, i, d => readFlags r (i + 1) { d with zero := true }
  | r, i, d => (d, r, i)

/-- The greatest width, the greatest precision, and the greatest number of digits of an integer. -/
def widthLimit : Nat := 9223372036854775807
def precisionLimit : Nat := 2147483647
def digitLimit : Nat := 2147483644

/-- A text with more characters does not fit into memory. -/
def memoryLimit : Nat := 4294967296

/-- Read a run of digits as a number of at most `limit`. -/
def readNumber (limit : Nat) (fault : Fault) (c : Cursor) : Except Fault (Nat × Cursor) :=
  let run := c.rest.takeWhile Char.isDigit
  let n := Text.valueOf 10 (run.map (·.toNat - 48))
  if limit < n then .error fault
  else .ok (n, { c with rest := c.rest.drop run.length, index := c.index + run.length })

def readStar (c : Cursor) : Except Fault (Int × Cursor) := do
  let (v, c) ← c.next
  match v.asInt? with
  | some i => return (i, c)
  | none => throw .starNotInt

/-- Read the width; a negative one from the values means its magnitude, flush left. -/
def readWidth (d : Directive) (c : Cursor) : Except Fault (Directive × Cursor) :=
  match c.rest with
  | '*' :: _ => do
    let (i, c) ← readStar c.advance
    if (widthLimit : Int) < i ∨ i < -(widthLimit : Int) - 1 then throw .starWidthTooBig
    return ({ d with
      width := if widthLimit < i.natAbs then 0 else i.natAbs
      left := d.left || i < 0 }, c)
  | _ => do
    let (n, c) ← readNumber widthLimit .widthTooBig c
    return ({ d with width := n }, c)

/-- Read the precision; a negative one from the values counts as zero. -/
def readPrecision (d : Directive) (c : Cursor) : Except Fault (Directive × Cursor) :=
  match c.rest with
  | '.' :: '*' :: _ => do
    let (i, c) ← readStar c.advance.advance
    if (precisionLimit : Int) < i ∨ i < -(precisionLimit : Int) - 1 then throw .starPrecisionTooBig
    return ({ d with precision := some i.toNat }, c)
  | '.' :: _ => do
    let (n, c) ← readNumber precisionLimit .precisionTooBig c.advance
    return ({ d with precision := some n }, c)
  | _ => return (d, c)

/-! ## Writing a value -/

/-- What is written for a value, before it is filled up to the width. -/
inductive Written
  /-- A number: negative or not, what stands in front of its digits, the digits. -/
  | number (negative : Bool) (head body : List Char)
  | text (cs : List Char)

/-- Fill a number up to the width: with blanks in front of its sign, with zeros behind it, or with
blanks at the end. -/
def Directive.placeNumber (d : Directive) (negative : Bool) (head body : List Char) : List Char :=
  let sign := if negative then ['-'] else if d.plus then ['+'] else if d.blank then [' '] else []
  let front := sign ++ head
  let gap := d.width - (front.length + body.length)
  if d.left then front ++ body ++ List.replicate gap ' '
  else if d.zero then front ++ List.replicate gap '0' ++ body
  else List.replicate gap ' ' ++ front ++ body

/-- Fill a text up to the width with blanks. -/
def Directive.placeText (d : Directive) (cs : List Char) : List Char :=
  let gap := d.width - cs.length
  if d.left then cs ++ List.replicate gap ' ' else List.replicate gap ' ' ++ cs

def Directive.place (d : Directive) (w : Written) : Except Fault (List Char) :=
  if memoryLimit < d.width then .error .outOfMemory else
  match w with
  | .number negative head body => .ok (d.placeNumber negative head body)
  | .text cs => .ok (d.placeText cs)

def Directive.cut (d : Directive) (cs : List Char) : List Char :=
  match d.precision with
  | some p => cs.take p
  | none => cs

/-- Digits, filled up with zeros to the precision; the number of decimal ones is limited. -/
def Directive.integer (d : Directive) (head : List Char) (base : Nat) (upper : Bool) (i : Int) :
    Except Fault Written :=
  let p := d.precision.getD 0
  if digitLimit < p then .error .tooManyDigits
  else if base = 10 ∧ Nat.pow 10 Text.maxDigits ≤ i.natAbs then .error .unwritable
  else .ok (.number (i < 0) (if d.alternate then head else [])
    (Text.padStart p '0' (Text.numeral base upper i.natAbs)))

def integerOf (letter : Char) (v : Value) : Except Fault Int :=
  match v with
  | .float .nan => .error .nanToInteger
  | .float (.infinite _) => .error .infinityToInteger
  | .float x => .ok (x.truncated?.getD 0)
  | v => match v.asInt? with
    | some i => .ok i
    | none => .error (.notReal letter v.typeName)

def floatOf (v : Value) : Except Fault Binary64 :=
  match v with
  | .float x => .ok x
  | v => match v.asInt? with
    | some i => match Binary64.ofInt? i with
      | some x => .ok x
      | none => .error .integerTooLarge
    | none => .error (.notFloat v.typeName)

/-- The text of a floating-point number in one of the three formats. -/
def Directive.floating (d : Directive) (letter : Char) (x : Binary64) : Written :=
  let p := d.precision.getD 6
  let body := match x with
    | .nan => "nan".toList
    | .infinite _ => "inf".toList
    | .finite _ m e =>
      let (a, b) := Binary64.ratio m e
      match letter.toLower with
      | 'e' => Binary64.scientificChars d.alternate a b p
      | 'f' => Binary64.fixedChars d.alternate a b p
      | _ => Binary64.generalChars d.alternate a b p
  let negative := match x with
    | .nan => false
    | .infinite s => s
    | .finite s _ _ => s
  .number negative [] (if letter.isUpper then body.map Char.toUpper else body)

def characterOf (v : Value) : Except Fault Char :=
  match v with
  | .text s => match s.toList with
    | [c] => .ok c
    | _ => .error .notCharacter
  | v => match v.asInt? with
    | some i => if 0 ≤ i ∧ i < 0x110000 then .ok (Char.ofNat i.toNat) else .error .characterRange
    | none => .error .notCharacter

/-- The letters that write an integer in another base. -/
def baseOf? : Char → Option (Nat × Bool × List Char)
  | 'o' => some (8, false, ['0', 'o'])
  | 'x' => some (16, false, ['0', 'x'])
  | 'X' => some (16, true, ['0', 'X'])
  | _ => none

/-- The part of a text that is written, if there is a text. -/
def Directive.quote (d : Directive) (s : Option String) : Except Fault Written :=
  match s with
  | some s => .ok (.text (d.cut s.toList))
  | none => .error .unwritable

/-- What the letter of a directive writes for a value; `index` is the place of the letter. -/
def Directive.written (d : Directive) (letter : Char) (index : Nat) (v : Value) :
    Except Fault Written :=
  match letter with
  | 's' => d.quote v.shown
  | 'r' => d.quote v.repr
  | 'a' => d.quote (v.repr.map Text.escapeNonAscii)
  | 'd' | 'i' | 'u' => do d.integer [] 10 false (← integerOf letter v)
  | 'e' | 'E' | 'f' | 'F' | 'g' | 'G' => (floatOf v).map (d.floating letter)
  | 'c' => (characterOf v).map fun c => .text [c]
  | _ => match baseOf? letter with
    | none => .error (.unsupported letter index)
    | some (base, upper, head) => match v.asInt? with
      | some i => d.integer head base upper i
      | none => .error (.notInteger letter v.typeName)

/-! ## Filling a template -/

/-- Skip one size letter. -/
def skipSize (c : Cursor) : Cursor :=
  match c.rest with
  | 'h' :: _ | 'l' :: _ | 'L' :: _ => c.advance
  | _ => c

def directive (c : Cursor) : Except Fault (List Char × Cursor) := do
  match c.rest with
  | '%' :: _ => return (['%'], c.advance)
  | '(' :: _ => throw .needsMapping
  | _ =>
    let (d, rest, index) := readFlags c.rest c.index {}
    let (d, c) ← readWidth d { c with rest, index }
    let (d, c) ← readPrecision d c
    let c := skipSize c
    match c.rest with
    | [] => throw .incomplete
    | letter :: _ =>
      let (v, after) ← c.advance.next
      let text ← d.place (← d.written letter c.index v)
      return (text, after)

/-- Fill the places of a template, in at most `fuel` pieces of it. -/
def fillFrom : Nat → Cursor → Except Fault (List Char)
  | 0, _ => .ok []
  | fuel + 1, c =>
    match c.rest with
    | [] => if c.values.isEmpty then .ok [] else .error .tooMany
    | '%' :: _ => do
      let (text, c) ← directive c.advance
      return text ++ (← fillFrom fuel c)
    | ch :: _ => do
      return ch :: (← fillFrom fuel c.advance)

/-- Fill the places of a template with values, all of which have to be used. -/
def fill (template : String) (values : List Value) : Except Fault String :=
  let cs := template.toList
  (fillFrom (cs.length + 1) ⟨cs, 0, values⟩).map String.ofList

end TestRig.Template
