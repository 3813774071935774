import TestRig.Text.Numeral
import TestRig.Text.Printable

/-!
# TestRig.Text.Quoted — quoted texts

A quoted text stands between single quotes, or between double quotes if it holds a single quote and
no double quote.  Backslashes and the surrounding quote are escaped by a backslash, newline,
carriage return and tab are written `\n`, `\r` and `\t`, and every other character that is not
printable is written by its number: `\x`, `\u` or `\U` with two, four or eight hexadecimal digits.

* `quoted` writes a text in quotes; `escapeNonAscii` leaves nothing outside ASCII in a text.
-/

namespace TestRig.Text

/-- A character by its number, in the shortest of the three hexadecimal forms. -/
def escapedNumber (c : Char) : List Char :=
  let n := c.toNat
  let hex := numeral 16 false n
  if n ≤ 0xFF then '\\' :: 'x' :: padStart 2 '0' hex
  else if n ≤ 0xFFFF then '\\' :: 'u' :: padStart 4 '0' hex
  else '\\' :: 'U' :: padStart 8 '0' hex

/-- One character of a quoted text; `plain` tells the characters that are shown as they are. -/
def escapedChar (plain : Char → Bool) (quote c : Char) : List Char :=
  if c = quote ∨ c = '\\' then ['\\', c]
  else if c = '\n' then ['\\', 'n']
  else if c = '\r' then ['\\', 'r']
  else if c = '\t' then ['\\', 't']
  else if plain c then [c]
  else escapedNumber c

/-- The quote that surrounds a text. -/
def quoteOf (cs : List Char) : Char := if '\'' ∈ cs ∧ '"' ∉ cs then '"' else '\''

/-- A text in quotes, with the characters that are not `plain` escaped. -/
def quotedBy (plain : Char → Bool) (cs : List Char) : List Char :=
  let quote := quoteOf cs
  quote :: (cs.flatMap (escapedChar plain quote) ++ [quote])

def quoted (s : String) : String := String.ofList (quotedBy isPrintable s.toList)

/-- Escape the characters outside ASCII of a text that is otherwise written as it is. -/
def escapeNonAscii (s : String) : String :=
  String.ofList (s.toList.flatMap fun c => if c.toNat < 128 then [c] else escapedNumber c)

end TestRig.Text
