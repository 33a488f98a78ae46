/-
# Quoted texts

A text between quote marks, on one line and in printable characters.  It stands
between apostrophes, unless it holds an apostrophe and no double quote: then it stands
between double quotes.  The backslash, the mark in use and every character that is not
printable are written with a backslash.
-/
import RuleSweep.Text.Numeral
import RuleSweep.Text.Printable

namespace RuleSweep

namespace Text

/-- The mark between two of which a text is quoted. -/
def quoteMark (t : Text) : Char :=
  if t.contains '\x27' && !t.contains '"' then '"' else '\x27'

/-- A code point that cannot be shown, by its number. -/
def numberedEscape (n : Nat) : Text :=
  if n < 0x100 then "\\x".toList ++ hex 2 n
  else if n < 0x10000 then "\\u".toList ++ hex 4 n
  else "\\U".toList ++ hex 8 n

/-- How a character is written in a text that stands between two marks `mark`. -/
def quotedChar (mark c : Char) : Text :=
  if c = mark ∨ c = '\\' then ['\\', c]
  else if c = '\n' then "\\n".toList
  else if c = '\r' then "\\r".toList
  else if c = '\t' then "\\t".toList
  else if isPrintable c then [c]
  else numberedEscape c.toNat

/-- A text between quote marks. -/
def quoted (t : Text) : Text :=
  quoteMark t :: t.flatMap (quotedChar (quoteMark t)) ++ [quoteMark t]

end Text

end RuleSweep
