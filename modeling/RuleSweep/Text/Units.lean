/-
# Sixteen-bit units

A code point above `U+FFFF` is written as two units, a high and a low surrogate; any
other code point is one unit.
-/
import RuleSweep.Text

namespace RuleSweep

/-- A unit that begins a pair. -/
def isHighSurrogate (unit : Nat) : Bool :=
  0xD800 ≤ unit && unit ≤ 0xDBFF

/-- A unit that ends a pair. -/
def isLowSurrogate (unit : Nat) : Bool :=
  0xDC00 ≤ unit && unit ≤ 0xDFFF

/-- A unit that is half of a pair. -/
def isSurrogate (unit : Nat) : Bool :=
  isHighSurrogate unit || isLowSurrogate unit

/-- The code point that a high and a low surrogate stand for. -/
def joinSurrogates (high low : Nat) : Nat :=
  0x10000 + (high - 0xD800) * 0x400 + (low - 0xDC00)

/-- The sixteen-bit units of a character. -/
def Text.units (c : Char) : List Nat :=
  if c.toNat < 0x10000 then [c.toNat]
  else [0xD800 + (c.toNat - 0x10000) / 0x400, 0xDC00 + (c.toNat - 0x10000) % 0x400]

end RuleSweep
