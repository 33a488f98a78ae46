/-
# Patterns

A pattern is what a search text stands for: a list of alternatives, each a sequence of
characters and wildcards.  `[or]` stands between two alternatives, and the blanks next
to it do not count; `\[or]` stands for the characters `[or]` themselves.  `[num]` finds
a run of decimal digits and `[cjk]` one CJK ideograph; everything else is found as it
is written.
-/
import RuleSweep.Text.Blank
import RuleSweep.Text.Numeral

namespace RuleSweep

/-! ## Wildcards -/

/-- What a wildcard finds. -/
inductive Wildcard where
  /-- A run of one or more decimal digits. -/
  | number
  /-- One CJK ideograph. -/
  | ideograph
  deriving DecidableEq, Repr

namespace Wildcard

/-- The name of a wildcard. -/
def name : Wildcard → Text
  | .number => "num".toList
  | .ideograph => "cjk".toList

/-- How a wildcard is written in a rule. -/
def marker (w : Wildcard) : Text :=
  '[' :: w.name ++ [']']

/-- The wildcard of a name. -/
def ofName? (name : Text) : Option Wildcard :=
  [Wildcard.number, .ideograph].find? fun w => w.name = name

end Wildcard

/-- A character of the block of CJK unified ideographs, as far as it was first filled. -/
def isIdeograph (c : Char) : Bool :=
  0x4E00 ≤ c.toNat && c.toNat ≤ 0x9FFF

/-! ## Pieces and patterns -/

/-- One place of an alternative. -/
inductive Piece where
  /-- This very character. -/
  | char (c : Char)
  /-- Something that the wildcard finds. -/
  | wildcard (w : Wildcard)
  deriving DecidableEq, Repr

namespace Piece

/-- The pieces of a text: its wildcard markers, and the characters around them. -/
def ofText : Text → List Piece
  | [] => []
  | '[' :: 'n' :: 'u' :: 'm' :: ']' :: rest => .wildcard .number :: ofText rest
  | '[' :: 'c' :: 'j' :: 'k' :: ']' :: rest => .wildcard .ideograph :: ofText rest
  | c :: rest => .char c :: ofText rest

/-- The wildcards among pieces, in order. -/
def wildcards : List Piece → List Wildcard
  | [] => []
  | .char _ :: rest => wildcards rest
  | .wildcard w :: rest => w :: wildcards rest

end Piece

/-- What a rule searches for. -/
structure Pattern where
  /-- The alternatives, in the order in which they are tried. -/
  alternatives : List (List Piece)
  deriving DecidableEq, Repr

namespace Pattern

/-- The wildcards of all alternatives, in the order in which they are written.  What
they find is numbered in this order, from one. -/
def wildcards (pattern : Pattern) : List Wildcard :=
  pattern.alternatives.flatMap Piece.wildcards

/-! ## Reading a search text -/

/-- The character that stands for `\[or]` while the alternatives are cut apart. -/
def shield : Char := '\uffff'

/-- The mark between two alternatives. -/
def alternativeMark : Text := "[or]".toList

/-- Put the shield in the place of every `\[or]`. -/
def shielded : Text → Text
  | [] => []
  | '\\' :: '[' :: 'o' :: 'r' :: ']' :: rest => shield :: shielded rest
  | c :: rest => c :: shielded rest

/-- Put `[or]` in the place of every shield. -/
def unshielded (t : Text) : Text :=
  t.flatMap fun c => if c = shield then alternativeMark else [c]

/-- Cut a text at every `[or]`. -/
def cutAlternatives : Text → List Text
  | [] => [[]]
  | '[' :: 'o' :: 'r' :: ']' :: rest => [] :: cutAlternatives rest
  | c :: rest => Text.consFirst c (cutAlternatives rest)

/-- Drop the blanks that stand next to a mark between two texts; those at the very
beginning and at the very end stay. -/
def trimInside : List Text → List Text
  | [] => []
  | [t] => [t]
  | t :: ts => t.trimRight :: trimAfter ts
where
  /-- The same for texts that stand behind a mark. -/
  trimAfter : List Text → List Text
    | [] => []
    | [t] => [t.trimLeft]
    | t :: ts => t.trim :: trimAfter ts

/-- The alternatives that a search text is made of, in order; empty ones do not count. -/
def splitAlternatives (search : Text) : List Text :=
  ((trimInside (cutAlternatives (shielded search))).filter (!·.isEmpty)).map unshielded

/-- The pattern of a search text, or nothing if it has no alternative to search for. -/
def ofSearch? (search : Text) : Option Pattern :=
  match splitAlternatives search with
  | [] => none
  | texts => some ⟨texts.map Piece.ofText⟩

end Pattern

end RuleSweep
