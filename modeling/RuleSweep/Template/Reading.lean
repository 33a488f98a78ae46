/-
# Reading a replacement

The replacement half of a rule is read in three steps.  First every dollar that no digit
follows is doubled.  Then the wildcard markers are replaced: the first marker by `$1`
if the first wildcard of the search is of its kind, the second by `$2` likewise, and so
on; and in a rule for whole lines that searches without wildcards, `[line]` is replaced
by the mark of the whole line.  Last the text is cut into tokens: `$$LINE$$` is the
whole line, `$$` a dollar, and `$` with digits what the wildcard of that number found.
-/
import RuleSweep.Template
import RuleSweep.Rule
import RuleSweep.Text.Numeral

namespace RuleSweep

namespace Template

/-! ## Dollars and wildcard markers -/

/-- Double every dollar that is not followed by a digit. -/
def doubleDollars : Text → Text
  | [] => []
  | '$' :: rest =>
    if (rest.head?.map isDigit).getD false then '$' :: doubleDollars rest
    else '$' :: '$' :: doubleDollars rest
  | c :: rest => c :: doubleDollars rest

/-- Write out pieces, the next wildcard among which has the index `index`: a wildcard
becomes a capture if the wildcard of that index in `order` is of its kind, and stays as
written otherwise. -/
def echoPieces (order : List Wildcard) : (index : Nat) → List Piece → Text
  | _, [] => []
  | index, .char c :: rest => c :: echoPieces order index rest
  | index, .wildcard w :: rest =>
    (if order[index]? = some w then '$' :: Text.decimal (index + 1) else w.marker)
      ++ echoPieces order (index + 1) rest

/-- Replace the wildcard markers of a text by the captures of a search whose wildcards
are `order`. -/
def echoWildcards (order : List Wildcard) (t : Text) : Text :=
  echoPieces order 0 (Piece.ofText t)

/-- The mark of the whole line. -/
def wholeLineMark : Text := "$$LINE$$".toList

/-- Replace every `[line]` by the mark of the whole line. -/
def echoLines : Text → Text
  | [] => []
  | '[' :: 'l' :: 'i' :: 'n' :: 'e' :: ']' :: rest => wholeLineMark ++ echoLines rest
  | c :: rest => c :: echoLines rest

/-! ## Tokens -/

/-- A mark of a text that is to be cut into tokens. -/
inductive Sign where
  /-- A character as it is. -/
  | char (c : Char)
  /-- A dollar and the digits behind it. -/
  | numeral (digits : Text)
  /-- The mark of the whole line. -/
  | wholeLine
  deriving DecidableEq, Repr

/-- The signs of a text whose first `skip` characters have been read. -/
def signsFrom : (skip : Nat) → Text → List Sign
  | _, [] => []
  | skip + 1, _ :: rest => signsFrom skip rest
  | 0, '$' :: rest =>
    if wholeLineMark.isPrefixOf ('$' :: rest) then
      .wholeLine :: signsFrom (wholeLineMark.length - 1) rest
    else if rest.head? = some '$' then .char '$' :: signsFrom 1 rest
    else
      match rest.takeWhile isDigit with
      | [] => .char '$' :: signsFrom 0 rest
      | digits => .numeral digits :: signsFrom digits.length rest
  | 0, c :: rest => .char c :: signsFrom 0 rest

/-- The signs of a text, from left to right. -/
def signs (t : Text) : List Sign :=
  signsFrom 0 t

/-- The template of a list of signs; the first numeral that is too long is refused. -/
def ofSigns : List Sign → Except NumeralTooLong Template
  | [] => .ok []
  | .char c :: rest => (ofSigns rest).map (consChar c)
  | .wholeLine :: rest => (ofSigns rest).map (.wholeLine :: ·)
  | .numeral digits :: rest =>
    match readNumeral digits with
    | .error e => .error e
    | .ok number => (ofSigns rest).map (.capture number :: ·)

/-- Cut a text into tokens. -/
def ofText (t : Text) : Except NumeralTooLong Template :=
  ofSigns (signs t)

/-- The template of a replacement half, for a search of the given scope whose wildcards
are `order`. -/
def ofReplacement (replacement : Text) (order : List Wildcard) (scope : Scope) :
    Except NumeralTooLong Template :=
  let t := echoWildcards order (doubleDollars replacement)
  ofText (if scope = .line ∧ order = [] then echoLines t else t)

end Template

end RuleSweep
