import TestRig.Text.Numeral

/-!
# TestRig.Binary64 — binary floating-point numbers

A finite number is `± m · 2 ^ e` with a mantissa below `2 ^ 53` and an exponent of at least
`-1074`.  All arithmetic is exact on quotients of natural numbers, followed by one rounding to the
nearest number, ties to the even mantissa.

* `ofRatio` rounds a quotient; `ofInt?` refuses integers beyond the finite range.
* `dividedBy` divides by a positive integer and rounds once.
* `read?` reads a decimal literal.
-/

namespace TestRig

/-- A binary floating-point number of 64 bits. -/
inductive Binary64
  | nan
  | infinite (negative : Bool)
  | finite (negative : Bool) (mantissa : Nat) (exponent : Int)
  deriving DecidableEq, Repr, Inhabited

namespace Binary64

/-- The nearest integer to `num / den`, ties to the even one. -/
def roundQuotient (num den : Nat) : Nat :=
  let q := num / den
  let r := num % den
  if 2 * r < den then q
  else if den < 2 * r then q + 1
  else if q % 2 = 0 then q else q + 1

/-- The quotient `num / den` divided by `base ^ e`, as numerator and denominator. -/
def scaled (base num den : Nat) (e : Int) : Nat × Nat :=
  match e with
  | .ofNat k => (num, den * base.pow k)
  | .negSucc k => (num * base.pow (k + 1), den)

/-- The least number of 53 bits. -/
def leastMantissa : Nat := 4503599627370496

/-- The exponent at which the mantissa of `num / den` has 53 bits, but at least the smallest. -/
def exponentOf (num den : Nat) : Int :=
  let guess : Int := (num.log2 : Int) - (den.log2 : Int) - 52
  let (a, b) := scaled 2 num den guess
  let e :=
    if a / b < leastMantissa then guess - 1
    else if 2 * leastMantissa ≤ a / b then guess + 1
    else guess
  max e (-1074)

def maxExponent : Int := 971

/-- The number nearest to `± num / den`, for a positive `den`. -/
def ofRatio (negative : Bool) (num den : Nat) : Binary64 :=
  if num = 0 then finite negative 0 (-1074) else
  let e := exponentOf num den
  let (a, b) := scaled 2 num den e
  let m := roundQuotient a b
  let (m, e) := if m = 2 * leastMantissa then (leastMantissa, e + 1) else (m, e)
  if maxExponent < e then infinite negative else finite negative m e

/-- The magnitude of `m · 2 ^ e` as a quotient. -/
def ratio (m : Nat) (e : Int) : Nat × Nat := scaled 2 m 1 (-e)

/-- The number nearest to an integer, if it is finite. -/
def ofInt? (i : Int) : Option Binary64 :=
  match ofRatio (i < 0) i.natAbs 1 with
  | infinite _ => none
  | x => some x

/-- The quotient by a positive integer. -/
def dividedBy (d : Nat) : Binary64 → Binary64
  | nan => nan
  | infinite s => infinite s
  | finite s m e => let (a, b) := ratio m e; ofRatio s a (b * d)

/-- The integer part, for a finite number. -/
def truncated? : Binary64 → Option Int
  | finite s m e => let (a, b) := ratio m e; some (if s then -(a / b : Nat) else (a / b : Nat))
  | _ => none

/-- Numerical equality: zeros are equal, and nothing equals a number that is none. -/
def same : Binary64 → Binary64 → Bool
  | nan, _ => false
  | _, nan => false
  | infinite s, infinite t => s == t
  | finite s m e, finite t n f => (m == 0 && n == 0) || (s == t && m == n && e == f)
  | _, _ => false

/-- Is the number an integer equal to `i`? -/
def equalsInt (x : Binary64) (i : Int) : Bool :=
  match x with
  | finite s m e =>
    let (a, b) := ratio m e
    a % b == 0 && (if s then -((a / b : Nat) : Int) else ((a / b : Nat) : Int)) == i
  | _ => false

/-! ## Reading -/

def readDigits (cs : List Char) : List Nat × List Char :=
  ((cs.takeWhile Char.isDigit).map (·.toNat - 48), cs.dropWhile Char.isDigit)

def readExponent? (cs : List Char) : Option (Int × List Char) :=
  match cs with
  | c :: r =>
    if c = 'e' ∨ c = 'E' then
      let (negative, r) := match r with
        | '-' :: r => (true, r)
        | '+' :: r => (false, r)
        | _ => (false, r)
      let (ds, r) := readDigits r
      if ds.isEmpty then none else
        let n : Int := Text.valueOf 10 ds
        some (if negative then -n else n, r)
    else some (0, cs)
  | [] => some (0, [])

def readMagnitude? (negative : Bool) (cs : List Char) : Option Binary64 :=
  let (whole, r) := readDigits cs
  let (part, r) := match r with
    | '.' :: r => readDigits r
    | _ => ([], r)
  if whole.isEmpty && part.isEmpty then none else
  match readExponent? r with
  | some (e, []) =>
    let n := Text.valueOf 10 (whole ++ part)
    let (a, b) := scaled 10 n 1 (part.length - e)
    some (ofRatio negative a b)
  | _ => none

/-- Read a decimal literal, `inf` or `nan`, with an optional sign and blanks around it. -/
def read? (s : String) : Option Binary64 :=
  let cs := (Text.trimChars s.toList).map Char.toLower
  let (negative, cs) := match cs with
    | '-' :: r => (true, r)
    | '+' :: r => (false, r)
    | _ => (false, cs)
  if cs = "inf".toList ∨ cs = "infinity".toList then some (infinite negative)
  else if cs = "nan".toList then some nan
  else readMagnitude? negative cs

end Binary64

end TestRig
