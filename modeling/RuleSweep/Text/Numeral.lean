/-
# Numerals

Whole numbers written in decimal and in hexadecimal digits, and the value of a run
of decimal digits.
-/
import RuleSweep.Text

namespace RuleSweep

/-- A decimal digit. -/
def isDigit (c : Char) : Bool :=
  '0' ≤ c && c ≤ '9'

namespace Text

/-- The decimal digits of a number, without a leading zero. -/
def decimal (n : Nat) : Text :=
  Nat.toDigits 10 n

/-- The decimal digits of a whole number, after a minus sign if it is below zero. -/
def signedDecimal (n : Int) : Text :=
  if n < 0 then '-' :: decimal n.natAbs else decimal n.natAbs

/-- The value of a run of decimal digits, leading zeros allowed. -/
def decimalValue (digits : Text) : Nat :=
  digits.foldl (fun value d => 10 * value + (d.toNat - '0'.toNat)) 0

/-- The last `width` hexadecimal digits of a number, in small letters. -/
def hex : (width : Nat) → Nat → Text
  | 0, _ => []
  | width + 1, n => hex width (n / 16) ++ [Nat.digitChar (n % 16)]

/-- A number in at least two decimal digits. -/
def twoDigits (n : Nat) : Text :=
  if n < 10 then '0' :: decimal n else decimal n

/-- A hexadecimal numeral has exactly the digits asked for. -/
theorem length_hex (width n : Nat) : (hex width n).length = width := by
  induction width generalizing n with
  | zero => rfl
  | succ width ih => simp [hex, ih]

end Text

/-- The decimal numerals that are read hold at most this many digits, leading zeros
counted. -/
def maxNumeralDigits : Nat := 4300

/-- A decimal numeral has more digits than are read. -/
structure NumeralTooLong where
  /-- How many digits the numeral has. -/
  digits : Nat
  deriving DecidableEq, Repr

/-- What is said of a numeral that is too long. -/
def NumeralTooLong.message (e : NumeralTooLong) : Text :=
  "Exceeds the limit (".toList ++ Text.decimal maxNumeralDigits
    ++ " digits) for integer string conversion: value has ".toList ++ Text.decimal e.digits
    ++ " digits; use sys.set_int_max_str_digits() to increase the limit".toList

/-- The value of a run of decimal digits, refused if the run is too long. -/
def readNumeral (digits : Text) : Except NumeralTooLong Nat :=
  if digits.length ≤ maxNumeralDigits then .ok (Text.decimalValue digits)
  else .error ⟨digits.length⟩

end RuleSweep
