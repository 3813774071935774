import TestRig.Text.Pieces

/-!
# TestRig.Supervision.Quoting — command lines as one text

A command is shown as one line in which every word can be told: a word that is empty or holds a
blank stands in double quotes.  A double quote is written behind a backslash, and backslashes are
doubled where they stand in front of a double quote.
-/

namespace TestRig.Supervision

def backslashes (n : Nat) : List Char := List.replicate n '\\'

/-- Escape a word; `held` backslashes have been read and not written yet, and `quoted` tells whether
a double quote follows the word. -/
def escapeWord (quoted : Bool) : Nat → List Char → List Char
  | held, [] => backslashes (if quoted then 2 * held else held)
  | held, '\\' :: r => escapeWord quoted (held + 1) r
  | held, '"' :: r => backslashes (2 * held) ++ '\\' :: '"' :: escapeWord quoted 0 r
  | held, c :: r => backslashes held ++ c :: escapeWord quoted 0 r

/-- A word has to be quoted if it is empty or holds a space or a tab. -/
def needsQuotes (word : List Char) : Bool := word.isEmpty || word.contains ' ' || word.contains '\t'

def quotedWord (word : List Char) : List Char :=
  if needsQuotes word then '"' :: (escapeWord true 0 word ++ ['"']) else escapeWord false 0 word

def commandLine (words : List String) : String :=
  String.ofList (Text.joinWith [' '] (words.map fun w => quotedWord w.toList))

end TestRig.Supervision
