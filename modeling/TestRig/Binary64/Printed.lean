import TestRig.Binary64

/-!
# TestRig.Binary64.Printed — decimal texts of floating-point numbers

* `Binary64.shortest` finds the fewest decimal digits that read back as the same number, and of
  those the nearest; `Binary64.shown` writes them, positionally from `0.0001` up to below `1e16`.
* `Binary64.fixed`, `Binary64.scientific` and `Binary64.general` round to a given number of
  places or digits, exact ties to the even digit.

All of them write a magnitude; the sign is put in front by `Binary64.signChars`.
-/

namespace TestRig.Binary64

/-- The exponent of the leading decimal digit of `num / den`, both positive. -/
def leadingExponent (num den : Nat) : Int :=
  if den ≤ num then ((Text.digits 10 (num / den)).length : Int) - 1
  else
    let q := (den + num - 1) / num
    0 - ((Text.digits 10 (q - 1)).length : Int)

structure Decimal where
  digits : List Nat
  exponent : Int
  deriving DecidableEq, Repr, Inhabited

/-- The decimal `n · 10 ^ e`, for a positive `n`. -/
def Decimal.ofScaled (n : Nat) (e : Int) : Decimal :=
  let ds := Text.digits 10 n
  ⟨ds, e + (ds.length : Int) - 1⟩

/-- Of the two neighbours of `m · 2 ^ e` on the decimal grid of `p` digits, the nearer one that
reads back as the same number; `k` is the exponent of the leading digit. -/
def neighbour? (m : Nat) (e k : Int) (a b p : Nat) : Option Decimal :=
  let unit : Int := k - (p : Int) + 1
  let (x, y) := scaled 10 a b unit
  let low := x / y
  let readsBack (n : Nat) : Bool :=
    let (c, d) := scaled 10 n 1 (-unit)
    ofRatio false c d == finite false m e
  let order := if 2 * (x % y) < y then [low, low + 1]
    else if y < 2 * (x % y) then [low + 1, low]
    else if low % 2 = 0 then [low, low + 1] else [low + 1, low]
  (order.find? readsBack).map fun n => Decimal.ofScaled n unit

/-- The fewest digits that read back as `m · 2 ^ e`, for a positive `m`. -/
def shortest (m : Nat) (e : Int) : Decimal :=
  let (a, b) := ratio m e
  let k := leadingExponent a b
  (((List.range 17).map (· + 1)).findSome? (neighbour? m e k a b)).getD ⟨[0], 0⟩

def digitChars (ds : List Nat) : List Char := ds.map (Text.digitChar false)

/-- An exponent: sign and at least two digits. -/
def exponentChars (e : Int) : List Char :=
  'e' :: (if e < 0 then '-' else '+') :: Text.padStart 2 '0' (Text.natChars e.natAbs)

/-- Digits with the point after the first `n` of them; missing digits are zeros. -/
def pointed (ds : List Char) (n : Nat) : List Char × List Char :=
  let ds := ds ++ List.replicate (n - ds.length) '0'
  (ds.take n, ds.drop n)

/-- Cut trailing zeros, but leave one digit. -/
def cutZeros : List Nat → List Nat
  | [] => []
  | d :: r =>
    match cutZeros r with
    | [0] => [d]
    | [] => [d]
    | s => d :: s

def shortestChars (d : Decimal) : List Char :=
  let ds := digitChars (cutZeros d.digits)
  if d.exponent < -4 ∨ 16 ≤ d.exponent then
    match ds with
    | [c] => c :: exponentChars d.exponent
    | c :: r => c :: '.' :: (r ++ exponentChars d.exponent)
    | [] => []
  else if d.exponent < 0 then
    '0' :: '.' :: (List.replicate (d.exponent.natAbs - 1) '0' ++ ds)
  else
    let (whole, part) := pointed ds (d.exponent.toNat + 1)
    whole ++ '.' :: (if part.isEmpty then ['0'] else part)

def signChars : Binary64 → List Char
  | nan => []
  | infinite s => if s then ['-'] else []
  | finite s _ _ => if s then ['-'] else []

/-- The shortest text that reads back as the same number. -/
def showChars (x : Binary64) : List Char :=
  match x with
  | nan => "nan".toList
  | infinite _ => x.signChars ++ "inf".toList
  | finite _ 0 _ => x.signChars ++ "0.0".toList
  | finite _ m e => x.signChars ++ shortestChars (shortest m e)

def shown (x : Binary64) : String := String.ofList x.showChars

/-! ## Rounded texts -/

/-- Digits of `num / den` rounded to `p` significant digits, `p` positive. -/
def significant (num den p : Nat) : Decimal :=
  if num = 0 then ⟨List.replicate p 0, 0⟩ else
  let k := leadingExponent num den
  let (a, b) := scaled 10 num den (k - (p : Int) + 1)
  let n := roundQuotient a b
  let (n, k) := if n = Nat.pow 10 p then (n / 10, k + 1) else (n, k)
  ⟨Text.digits 10 n, k⟩

/-- The point, if digits follow or it is kept. -/
def withPart (keepPoint : Bool) (whole part : List Char) : List Char :=
  if part.isEmpty && !keepPoint then whole else whole ++ '.' :: part

/-- A magnitude with `places` digits after the point. -/
def fixedChars (keepPoint : Bool) (num den places : Nat) : List Char :=
  let (a, b) := scaled 10 num den (-(places : Int))
  let ds := Text.padStart (places + 1) '0' (Text.natChars (roundQuotient a b))
  withPart keepPoint (ds.take (ds.length - places)) (ds.drop (ds.length - places))

/-- A magnitude with one digit before the point, `places` after it, and an exponent. -/
def scientificChars (keepPoint : Bool) (num den places : Nat) : List Char :=
  let d := significant num den (places + 1)
  let ds := digitChars d.digits
  withPart keepPoint (ds.take 1) (ds.drop 1) ++ exponentChars d.exponent

/-- A magnitude with `precision` significant digits, positionally where the exponent is from `-4`
to below the precision.  Trailing zeros are cut unless `keepZeros`. -/
def generalChars (keepZeros : Bool) (num den precision : Nat) : List Char :=
  let p := max precision 1
  let d := significant num den p
  let ds := if keepZeros then d.digits else cutZeros d.digits
  let cs := digitChars ds
  if -4 ≤ d.exponent ∧ d.exponent < p then
    if d.exponent < 0 then
      '0' :: '.' :: (List.replicate (d.exponent.natAbs - 1) '0' ++ cs)
    else
      let (whole, part) := pointed cs (d.exponent.toNat + 1)
      withPart keepZeros whole part
  else
    withPart keepZeros (cs.take 1) (cs.drop 1) ++ exponentChars d.exponent

end TestRig.Binary64
