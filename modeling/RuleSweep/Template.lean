/-
# Templates

A template is what the replacement half of a rule stands for: literal text, what the
wildcards found, and the line that was found.
-/
import RuleSweep.Pattern.Search
import RuleSweep.Text.Line

namespace RuleSweep

/-- One part of a template. -/
inductive Token where
  /-- This very text. -/
  | literal (text : Text)
  /-- What the wildcard of this number found; wildcards are numbered from one. -/
  | capture (number : Nat)
  /-- The line that was found, without its terminator. -/
  | wholeLine
  deriving DecidableEq, Repr

/-- What is put in the place of a find. -/
abbrev Template := List Token

namespace Token

/-- What the wildcard of a number found, if there is such a wildcard and it took part. -/
def captured (groups : Groups) : (number : Nat) → Text
  | 0 => []
  | i + 1 => ((groups[i]?).getD none).getD []

/-- What a token stands for, given the text that was found and what the wildcards
found. -/
def render (found : Text) (groups : Groups) : Token → Text
  | .literal text => text
  | .capture number => captured groups number
  | .wholeLine => found.withoutTerminator

end Token

namespace Template

/-- What a template stands for, given the text that was found and what the wildcards
found. -/
def render (template : Template) (found : Text) (groups : Groups) : Text :=
  template.flatMap (Token.render found groups)

/-- Put a character in front of a template; it joins a literal that begins there. -/
def consChar (c : Char) : Template → Template
  | .literal text :: rest => .literal (c :: text) :: rest
  | template => .literal [c] :: template

end Template

end RuleSweep
