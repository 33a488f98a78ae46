/-
# Moments

A date and a time of day, as a clock shows them.
-/
import RuleSweep.Text.Numeral

namespace RuleSweep

/-- A date and a time of day. -/
structure Moment where
  /-- The year. -/
  year : Nat
  /-- The month, from one. -/
  month : Nat
  /-- The day of the month, from one. -/
  day : Nat
  /-- The hour, from zero. -/
  hour : Nat
  /-- The minute, from zero. -/
  minute : Nat
  /-- The second, from zero. -/
  second : Nat
  deriving DecidableEq, Repr

namespace Moment

/-- A year in four digits. -/
def fourDigits (year : Nat) : Text :=
  Text.twoDigits (year / 100) ++ Text.twoDigits (year % 100)

/-- The moment as it stands in front of a journal entry. -/
def stamp (moment : Moment) : Text :=
  fourDigits moment.year ++ '-' :: Text.twoDigits moment.month ++ '-'
    :: Text.twoDigits moment.day ++ ' ' :: Text.twoDigits moment.hour ++ ':'
    :: Text.twoDigits moment.minute ++ ':' :: Text.twoDigits moment.second

/-- The moment as it stands in the name of a file: year, month and day in two digits
each, a hyphen, hour and minute. -/
def brief (moment : Moment) : Text :=
  Text.twoDigits (moment.year % 100) ++ Text.twoDigits moment.month
    ++ Text.twoDigits moment.day ++ '-' :: Text.twoDigits moment.hour
    ++ Text.twoDigits moment.minute

end Moment

end RuleSweep
