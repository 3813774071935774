import TestRig.Text.Blank
import TestRig.Text.Digit

/-!
# TestRig.Text.Numeral — writing and reading natural numbers

* `digits b n` are the digits of `n` in base `b`, the highest first; `valueOf b` is the number that
  a digit list denotes, and `valueOf_digits` says that it undoes `digits`.
* `showNat`, `showInt` write decimal numerals; `showInt?` writes no more than `maxDigits` digits.
* `readNat` reads a numeral of decimal digits of any script.  A numeral may have at most
  `maxDigits` digits; a digit without decimal value has no place in it.
-/

namespace TestRig.Text

/-! ## Digits -/

/-- Put the digits of `n` in base `b` in front of `acc`, the highest first. -/
def digitsOnto (b n : Nat) (acc : List Nat) : List Nat :=
  if _h : 2 ≤ b ∧ b ≤ n then digitsOnto b (n / b) (n % b :: acc) else n :: acc
termination_by n
decreasing_by exact Nat.div_lt_self (by omega) (by omega)

/-- The digits of `n` in base `b`, the highest first; zero has the one digit 0. -/
def digits (b n : Nat) : List Nat := digitsOnto b n []

/-- The number that a list of digits denotes, the highest digit first. -/
def valueOf (b : Nat) (ds : List Nat) : Nat := ds.foldl (fun acc d => b * acc + d) 0

theorem foldl_digitsOnto (b n : Nat) (acc : List Nat) :
    (digitsOnto b n acc).foldl (fun a d => b * a + d) 0 = acc.foldl (fun a d => b * a + d) n := by
  fun_induction digitsOnto b n acc with
  | case1 n acc h ih => rw [ih, List.foldl_cons, Nat.div_add_mod]
  | case2 n acc h => simp

@[simp] theorem valueOf_digits (b n : Nat) : valueOf b (digits b n) = n := by
  simp [valueOf, digits, foldl_digitsOnto]

theorem digits_injective (b : Nat) {m n : Nat} (h : digits b m = digits b n) : m = n := by
  rw [← valueOf_digits b m, h, valueOf_digits]

theorem digitsOnto_lt {b n : Nat} {acc : List Nat} (hb : 2 ≤ b) (h : ∀ d ∈ acc, d < b) :
    ∀ d ∈ digitsOnto b n acc, d < b := by
  fun_induction digitsOnto b n acc with
  | case1 n acc _ ih =>
    refine ih fun d hd => ?_
    rcases List.mem_cons.mp hd with rfl | hd
    · exact Nat.mod_lt _ (by omega)
    · exact h d hd
  | case2 n acc hn =>
    intro d hd
    rcases List.mem_cons.mp hd with rfl | hd
    · omega
    · exact h d hd

theorem digits_lt {b n : Nat} (hb : 2 ≤ b) : ∀ d ∈ digits b n, d < b :=
  digitsOnto_lt hb (by simp)

/-- The greatest number of digits of a numeral that is read, or written for a value. -/
def maxDigits : Nat := 4300

/-! ## Writing -/

/-- The character of a digit below sixteen; letters are in the given case. -/
def digitChar (upper : Bool) (d : Nat) : Char :=
  Char.ofNat (if d < 10 then 48 + d else if upper then 55 + d else 87 + d)

/-- The numeral of `n` in base `b`, at most sixteen. -/
def numeral (b : Nat) (upper : Bool) (n : Nat) : List Char := (digits b n).map (digitChar upper)

def natChars (n : Nat) : List Char := numeral 10 false n

/-- The decimal numeral of an integer, with a minus sign in front of a negative one. -/
def intChars : Int → List Char
  | .ofNat n => natChars n
  | .negSucc n => '-' :: natChars (n + 1)

def showNat (n : Nat) : String := String.ofList (natChars n)

def showInt (i : Int) : String := String.ofList (intChars i)

/-- The decimal numeral of an integer of at most `maxDigits` digits. -/
def showInt? (i : Int) : Option String :=
  if i.natAbs < Nat.pow 10 maxDigits then some (showInt i) else none

/-- Put `c` in front until the text has `width` characters. -/
def padStart (width : Nat) (c : Char) (cs : List Char) : List Char :=
  List.replicate (width - cs.length) c ++ cs

/-! ## Reading -/

/-- Why a text of digits is not read as a number. -/
inductive NumeralFault
  /-- The numeral begins with more than `maxDigits` decimal digits, `length` in all. -/
  | tooLong (length : Nat)
  /-- A digit of the numeral has no decimal value. -/
  | valueless (text : String)
  deriving DecidableEq, Repr

/-- The length of the longest beginning of decimal digits. -/
def decimalRun (cs : List Char) : Nat := (cs.takeWhile isDecimal).length

/-- Read a text of digits as a number. -/
def readNat (cs : List Char) : Except NumeralFault Nat :=
  if maxDigits < decimalRun cs then .error (.tooLong (decimalRun cs)) else
  match cs.mapM decimal? with
  | some ds => .ok (valueOf 10 ds)
  | none => .error (.valueless (String.ofList cs))

end TestRig.Text
