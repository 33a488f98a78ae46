/-
# Searching for a pattern

An alternative is matched piece by piece.  A number wildcard takes the longest run of
digits behind which the rest of the alternative fits.  Of several alternatives the first
that fits is used, and a search finds the leftmost place where one fits.
-/
import RuleSweep.Pattern

namespace RuleSweep

/-- How the beginning of a text fits a sequence of pieces. -/
structure Fit where
  /-- How many characters the pieces take. -/
  length : Nat
  /-- What each wildcard found, in order. -/
  captures : List Text
  deriving DecidableEq, Repr

/-- The longest run of digits at the beginning of a text behind which `goOn` succeeds,
and what it answers there. -/
def longestRun {α : Type} (goOn : Text → Option α) : Text → Option (Text × α)
  | [] => none
  | d :: rest =>
    if isDigit d then
      match longestRun goOn rest with
      | some (run, answer) => some (d :: run, answer)
      | none => (goOn rest).map fun answer => ([d], answer)
    else none

namespace Piece

/-- How the beginning of a text fits a sequence of pieces, if it does. -/
def fit? : List Piece → Text → Option Fit
  | [], _ => some ⟨0, []⟩
  | .char c :: pieces, text =>
    match text with
    | [] => none
    | d :: rest =>
      if c = d then (fit? pieces rest).map fun fit => ⟨fit.length + 1, fit.captures⟩
      else none
  | .wildcard .ideograph :: pieces, text =>
    match text with
    | [] => none
    | d :: rest =>
      if isIdeograph d then
        (fit? pieces rest).map fun fit => ⟨fit.length + 1, [d] :: fit.captures⟩
      else none
  | .wildcard .number :: pieces, text =>
    (longestRun (fit? pieces) text).map fun (run, fit) =>
      ⟨run.length + fit.length, run :: fit.captures⟩

end Piece

/-- What every wildcard of a pattern found; one whose alternative was not used found
nothing. -/
abbrev Groups := List (Option Text)

/-- How a pattern fits at the beginning of a text. -/
structure Hit where
  /-- How many characters it takes. -/
  length : Nat
  /-- What its wildcards found. -/
  groups : Groups
  deriving DecidableEq, Repr

/-- Where a search ended: how many characters it skipped, and how the pattern fits
there. -/
structure Find where
  /-- The number of characters in front of the hit. -/
  skipped : Nat
  /-- How the pattern fits behind them. -/
  hit : Hit
  deriving DecidableEq, Repr

namespace Pattern

/-- The groups of wildcards that took no part. -/
def unused (pieces : List Piece) : Groups :=
  (Piece.wildcards pieces).map fun _ => none

/-- The first of several alternatives that fits at the beginning of a text. -/
def firstFit? : List (List Piece) → Text → Option Hit
  | [], _ => none
  | pieces :: others, text =>
    match Piece.fit? pieces text with
    | some fit => some ⟨fit.length, fit.captures.map some ++ others.flatMap unused⟩
    | none =>
      (firstFit? others text).map fun hit => ⟨hit.length, unused pieces ++ hit.groups⟩

/-- How the pattern fits at the beginning of a text. -/
def hit? (pattern : Pattern) (text : Text) : Option Hit :=
  firstFit? pattern.alternatives text

/-- The leftmost place of a text where the pattern fits, when `skipped` characters have
been skipped in front of the text. -/
def findAfter (pattern : Pattern) (skipped : Nat) : Text → Option Find
  | [] => (pattern.hit? []).map fun hit => ⟨skipped, hit⟩
  | c :: rest =>
    match pattern.hit? (c :: rest) with
    | some hit => some ⟨skipped, hit⟩
    | none => pattern.findAfter (skipped + 1) rest

/-- The leftmost place of a text where the pattern fits. -/
def find? (pattern : Pattern) (text : Text) : Option Find :=
  pattern.findAfter 0 text

/-- Every find of a pattern in a text, each searched for from the end of the one before
it on; `start` is the position of the text, and at most `limit` finds are listed. -/
def findFrom (pattern : Pattern) (start : Nat) (text : Text) :
    (limit : Nat) → List (Nat × Hit)
  | 0 => []
  | limit + 1 =>
    match pattern.find? text with
    | none => []
    | some ⟨skipped, hit⟩ =>
      let start := start + skipped
      (start, hit)
        :: pattern.findFrom (start + hit.length) (text.drop (skipped + hit.length)) limit

/-- Every find of a pattern in a text with its position, from left to right and without
overlap.  A hit takes at least one character, so there are at most as many as the text
has characters. -/
def findAll (pattern : Pattern) (text : Text) : List (Nat × Hit) :=
  pattern.findFrom 0 text text.length

end Pattern

end RuleSweep
