/-
# Texts

A text is a list of code points.  This module holds the few operations on texts
from which the rest is built: cutting a text at the first place of a mark or at every
place of a character, and joining pieces.
-/

namespace RuleSweep

/-- A text: a list of code points, so that positions and lengths count code points. -/
abbrev Text := List Char

namespace Text

/-! ## Cutting at a mark -/

/-- The parts of a text before and after the first place where `mark` stands, or
nothing if `mark` stands nowhere in it. -/
def cutAt? (mark : Text) : Text → Option (Text × Text)
  | [] => if mark.isEmpty then some ([], []) else none
  | c :: rest =>
    if mark.isPrefixOf (c :: rest) then some ([], (c :: rest).drop mark.length)
    else (cutAt? mark rest).map fun (before, after) => (c :: before, after)

/-- Put a character in front of the first text of a list. -/
def consFirst (c : Char) : List Text → List Text
  | [] => [[c]]
  | t :: ts => (c :: t) :: ts

/-- Cut a text at every character `mark`, and drop these characters.  A text without
one is a single piece, and so is the empty text. -/
def cutEvery (mark : Char) (t : Text) : List Text :=
  t.foldr (fun c pieces => if c = mark then [] :: pieces else consFirst c pieces) [[]]

/-- The rows of a text: what stands between its newlines. -/
def rows (t : Text) : List Text :=
  cutEvery '\n' t

/-- The texts of a list one after the other, with `mark` between two neighbours. -/
def joinWith (mark : Text) (ts : List Text) : Text :=
  List.intercalate mark ts

/-! ## Small laws -/

/-- The pieces of a text that begins with a character. -/
theorem cutEvery_cons (mark c : Char) (t : Text) :
    cutEvery mark (c :: t)
      = if c = mark then [] :: cutEvery mark t else consFirst c (cutEvery mark t) := rfl

/-- Cutting makes at least one piece. -/
theorem cutEvery_ne_nil (mark : Char) (t : Text) : cutEvery mark t ≠ [] := by
  cases t with
  | nil => simp [cutEvery]
  | cons c rest =>
    rw [cutEvery_cons]
    split
    · simp
    · cases cutEvery mark rest <;> simp [consFirst]

/-- Joining the pieces with the mark gives the text back. -/
theorem joinWith_cutEvery (mark : Char) (t : Text) : joinWith [mark] (cutEvery mark t) = t := by
  induction t with
  | nil => rfl
  | cons c rest ih =>
    rw [cutEvery_cons]
    cases hr : cutEvery mark rest with
    | nil => exact absurd hr (cutEvery_ne_nil mark rest)
    | cons r rs =>
      rw [hr] at ih
      split
      · next h => simp_all [joinWith]
      · cases rs <;> simp_all [consFirst, joinWith]

end Text

end RuleSweep
