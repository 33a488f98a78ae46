/-
# Sizes

A size in bytes is shown in units of 1024 times 1024 bytes with one decimal.  The size
is divided by 1024 twice in binary floating point with 53 significant bits, and the
outcome is rounded to one decimal; in both roundings a tie goes to the even neighbour.
The second division is exact.
-/
import RuleSweep.Text.Numeral

namespace RuleSweep

/-- The quotient of two numbers, rounded to the nearest whole number; a tie goes to the
even one. -/
def roundQuotient (n d : Nat) : Nat :=
  let q := n / d
  let twice := 2 * (n % d)
  if twice < d then q
  else if d < twice then q + 1
  else if q % 2 = 0 then q else q + 1

namespace Size

/-- How many bits of a number count in binary floating point. -/
def significantBits : Nat := 53

/-- A number rounded to the bits that count. -/
def toSignificant (n : Nat) : Nat :=
  if n < Nat.pow 2 significantBits then n
  else
    let unit := Nat.pow 2 (n.log2 + 1 - significantBits)
    roundQuotient n unit * unit

/-- The least number of bytes whose first quotient is beyond the floating-point
numbers. -/
def tooManyBytes : Nat := Nat.pow 2 1034

/-- A size in units of 1024 times 1024 bytes with one decimal, if it is not beyond the
floating-point numbers.  A size below zero keeps its minus sign even if it is shown as
zero. -/
def megabytes? (size : Int) : Option Text :=
  let rounded := toSignificant size.natAbs
  if tooManyBytes ≤ rounded then none
  else
    let tenths := roundQuotient (rounded * 10) (1024 * 1024)
    some ((if size < 0 then ['-'] else [])
      ++ Text.decimal (tenths / 10) ++ '.' :: Text.decimal (tenths % 10))

/-- What is said of a file that is larger than the limit, if both sizes can be shown. -/
def tooLarge? (size limit : Int) : Option Text := do
  let size ← megabytes? size
  let limit ← megabytes? limit
  return "File too large (".toList ++ size ++ "MB). Limit is ".toList ++ limit
    ++ "MB.".toList

/-- What is said of a size that cannot be shown. -/
def overflowMessage : Text :=
  "integer division result too large for a float".toList

end Size

end RuleSweep
