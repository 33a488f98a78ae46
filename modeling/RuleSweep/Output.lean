/-
# Output formats

A result is shown as plain text, as HTML with a class for every kind of segment, or as
JSON with one line for every segment.
-/
import RuleSweep.Json.Quoted
import RuleSweep.Sweep.Segment

namespace RuleSweep

/-! ## HTML -/

namespace Html

/-- How a character is written between tags and in quotes. -/
def escapeChar (c : Char) : Text :=
  if c = '&' then "&amp;".toList
  else if c = '<' then "&lt;".toList
  else if c = '>' then "&gt;".toList
  else if c = '"' then "&quot;".toList
  else if c = '\x27' then "&#x27;".toList
  else [c]

/-- A text between tags. -/
def escape (t : Text) : Text :=
  t.flatMap escapeChar

/-- The class of the segments of a kind. -/
def className : SegmentKind → Text
  | .kept => "diff-original".toList
  | .added => "diff-add".toList
  | .replaced => "diff-replace".toList

/-- The tag that opens a segment of a kind. -/
def openTag (kind : SegmentKind) : Text :=
  "<span class=\"".toList ++ className kind ++ "\">".toList

/-- The tag that closes a segment. -/
def closeTag : Text :=
  "</span>".toList

/-- A segment between its tags. -/
def element (segment : Segment) : Text :=
  openTag segment.kind ++ escape segment.text ++ closeTag

/-- Segments as HTML. -/
def render (segments : List Segment) : Text :=
  segments.flatMap element

end Html

/-! ## JSON lines -/

namespace SegmentLines

/-- A segment as a JSON object. -/
def line (segment : Segment) : Text :=
  "\x7b\"kind\": ".toList ++ Json.quoted .unicode segment.kind.name
    ++ ", \"text\": ".toList ++ Json.quoted .unicode segment.text ++ "\x7d".toList

/-- Segments as JSON objects, each on its own line. -/
def render (segments : List Segment) : Text :=
  Text.joinWith ['\n'] (segments.map line)

end SegmentLines

/-! ## Formats -/

/-- A way to show a result. -/
inductive OutputFormat where
  /-- The new text. -/
  | text
  /-- HTML. -/
  | html
  /-- A JSON object for every segment. -/
  | segments
  deriving DecidableEq, Repr

namespace OutputFormat

/-- The formats, in the order in which they are listed. -/
def all : List OutputFormat :=
  [.text, .html, .segments]

/-- The name of a format. -/
def name : OutputFormat → Text
  | .text => "text".toList
  | .html => "html".toList
  | .segments => "segments".toList

/-- The format of a name. -/
def ofName? (name : Text) : Option OutputFormat :=
  all.find? fun format => format.name = name

/-- Segments in a format. -/
def render : OutputFormat → List Segment → Text
  | .text => Segment.textOf
  | .html => Html.render
  | .segments => SegmentLines.render

/-- Segments in a format as they are printed: all but the new text itself end in a
newline. -/
def print (format : OutputFormat) (segments : List Segment) : Text :=
  if format = .text then format.render segments else format.render segments ++ ['\n']

end OutputFormat

end RuleSweep
