/-
# Blanks

The white space of Unicode, and trimming it from the ends of a text.
-/
import RuleSweep.Text

namespace RuleSweep

/-- The ranges of code points that are white space: the controls from tab to carriage
return and from file to unit separator, the next-line control, and the spaces and
separators of Unicode. -/
def blankRanges : List (Nat × Nat) :=
  [(0x09, 0x0D), (0x1C, 0x20), (0x85, 0x85), (0xA0, 0xA0), (0x1680, 0x1680),
   (0x2000, 0x200A), (0x2028, 0x2029), (0x202F, 0x202F), (0x205F, 0x205F), (0x3000, 0x3000)]

/-- White space, the newline included. -/
def isBlank (c : Char) : Bool :=
  blankRanges.any fun (first, last) => first ≤ c.toNat && c.toNat ≤ last

namespace Text

/-- The text from its first character that is no blank. -/
def trimLeft (t : Text) : Text :=
  t.dropWhile isBlank

/-- The text up to its last character that is no blank. -/
def trimRight (t : Text) : Text :=
  (t.reverse.dropWhile isBlank).reverse

/-- The text without the blanks at its two ends. -/
def trim (t : Text) : Text :=
  trimRight (trimLeft t)

end Text

end RuleSweep
