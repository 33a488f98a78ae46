/-
# Lines and their terminators

A line of a text reaches up to and including the next newline; the last line may lack
one.  Its terminator is the newline, together with a carriage return right before it.
There are two readings of a terminator: `terminator` tests how a text ends, and
`withoutTerminator` walks through the text until only a terminator is left.
-/
import RuleSweep.Text

namespace RuleSweep

namespace Text

/-- The lines of a text, terminators included. -/
def lines (t : Text) : List Text :=
  t.foldr (fun c ls => if c = '\n' then [c] :: ls else consFirst c ls) []

/-- The terminator at the end of a text: a carriage return with a newline, a newline
alone, or nothing. -/
def terminator (t : Text) : Text :=
  if ['\r', '\n'].isSuffixOf t then ['\r', '\n']
  else if ['\n'].isSuffixOf t then ['\n']
  else []

/-- A text without the one terminator at its end. -/
def withoutTerminator : Text → Text
  | [] => []
  | c :: rest =>
    if c :: rest = ['\r', '\n'] ∨ c :: rest = ['\n'] then []
    else c :: withoutTerminator rest

/-! ## Small laws -/

/-- The lines of a text that begins with a character. -/
theorem lines_cons (c : Char) (t : Text) :
    lines (c :: t) = if c = '\n' then [c] :: lines t else consFirst c (lines t) := rfl

/-- The lines of a text, put together, are the text. -/
theorem flatten_lines (t : Text) : (lines t).flatten = t := by
  induction t with
  | nil => rfl
  | cons c rest ih =>
    rw [lines_cons]
    split
    · simp [ih]
    · cases h : lines rest <;> simp_all [consFirst]

end Text

/-- A line of a source: where it starts, and what it holds. -/
structure Line where
  /-- The position of its first character in the source. -/
  start : Nat
  /-- What it holds, the terminator included. -/
  text : Text
  deriving DecidableEq, Repr

namespace Line

/-- The position right after the line. -/
def stop (line : Line) : Nat :=
  line.start + line.text.length

/-- Texts that follow one another, with their positions, from position `start` on. -/
def placeFrom (start : Nat) : List Text → List Line
  | [] => []
  | t :: ts => ⟨start, t⟩ :: placeFrom (start + t.length) ts

/-- The lines of a source with their positions. -/
def ofSource (source : Text) : List Line :=
  placeFrom 0 source.lines

end Line

end RuleSweep
