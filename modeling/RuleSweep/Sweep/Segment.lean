/-
# Segments

The answer of a sweep is a list of segments: stretches of the new text, each with a kind
that says what became of the stretch of the source it stands for.
-/
import RuleSweep.Text

namespace RuleSweep

/-- What became of a stretch of the source. -/
inductive SegmentKind where
  /-- No rule found anything in it. -/
  | kept
  /-- A rule that marks found it. -/
  | added
  /-- A rule that replaces found it. -/
  | replaced
  deriving DecidableEq, Repr

namespace SegmentKind

/-- The name of a kind. -/
def name : SegmentKind → Text
  | .kept => "original".toList
  | .added => "added".toList
  | .replaced => "replaced".toList

/-- The kind of a name. -/
def ofName? (name : Text) : Option SegmentKind :=
  [SegmentKind.kept, .added, .replaced].find? fun kind => kind.name = name

end SegmentKind

/-- A stretch of the new text. -/
structure Segment where
  /-- What became of the stretch of the source. -/
  kind : SegmentKind
  /-- What stands there now. -/
  text : Text
  deriving DecidableEq, Repr

/-- The text that segments make up. -/
def Segment.textOf (segments : List Segment) : Text :=
  segments.flatMap Segment.text

end RuleSweep
