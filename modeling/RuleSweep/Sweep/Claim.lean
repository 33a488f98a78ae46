/-
# Claimed lines

A rule for whole lines claims every line inside which its pattern fits somewhere.  If
several rules fit, the first of them has the line.
-/
import RuleSweep.Matcher
import RuleSweep.Sweep.Segment

namespace RuleSweep

/-- The kind of the segments that a matcher makes. -/
def Matcher.kind (matcher : Matcher) : SegmentKind :=
  if matcher.rule.replaces then .replaced else .added

/-- A line that a matcher has claimed. -/
structure Claim where
  /-- The line. -/
  line : Line
  /-- The matcher that has it. -/
  matcher : Matcher
  /-- What the wildcards found at the leftmost place of the line where the pattern
  fits. -/
  groups : Groups
  deriving DecidableEq, Repr

namespace Claim

/-- The claim of the first of several matchers whose pattern fits inside a line. -/
def ofLine? (matchers : List Matcher) (line : Line) : Option Claim :=
  matchers.findSome? fun matcher =>
    (matcher.pattern.find? line.text).map fun found => ⟨line, matcher, found.hit.groups⟩

/-- The claims of matchers on the lines of a source, from the first line on. -/
def ofSource (matchers : List Matcher) (source : Text) : List Claim :=
  (Line.ofSource source).filterMap (ofLine? matchers)

/-- A new content of a line keeps the line's terminator, unless it ends in a newline of
its own or is the empty content that a deleting rule leaves. -/
def keepsTerminator (matcher : Matcher) (content : Text) : Bool :=
  (!content.isEmpty || !matcher.rule.deletes) && !(['\n'].isSuffixOf content)

/-- The segment that stands for a claimed line. -/
def segment (claim : Claim) : Segment :=
  let content := claim.matcher.render claim.line.text claim.groups
  if claim.matcher.rule.replaces && keepsTerminator claim.matcher content then
    ⟨claim.matcher.kind, content ++ claim.line.text.terminator⟩
  else ⟨claim.matcher.kind, content⟩

end Claim

end RuleSweep
