/-
# JSON strings

A text between double quotes.  Quotes, backslashes and the controls below the space are
written with a backslash.  On request so is every character above `~`, in units of
sixteen bits, so that the result holds ASCII characters only.
-/
import RuleSweep.Text.Numeral
import RuleSweep.Text.Units

namespace RuleSweep

namespace Json

/-- Which characters may stand in a string as they are. -/
inductive Repertoire where
  /-- All but quotes, backslashes and controls. -/
  | unicode
  /-- Of these only the ones from the space to `~`. -/
  | ascii
  deriving DecidableEq, Repr

/-- A unit of sixteen bits, by its number. -/
def escapeUnit (unit : Nat) : Text :=
  "\\u".toList ++ Text.hex 4 unit

/-- How a character is written in a string. -/
def quotedChar (repertoire : Repertoire) (c : Char) : Text :=
  if c = '"' then "\\\"".toList
  else if c = '\\' then "\\\\".toList
  else if c = '\n' then "\\n".toList
  else if c = '\r' then "\\r".toList
  else if c = '\t' then "\\t".toList
  else if c = '\x08' then "\\b".toList
  else if c = '\x0c' then "\\f".toList
  else if c.toNat < 0x20 then escapeUnit c.toNat
  else if repertoire = .ascii ∧ 0x7F ≤ c.toNat then (Text.units c).flatMap escapeUnit
  else [c]

/-- A text as a JSON string. -/
def quoted (repertoire : Repertoire) (t : Text) : Text :=
  '"' :: t.flatMap (quotedChar repertoire) ++ ['"']

end Json

end RuleSweep
