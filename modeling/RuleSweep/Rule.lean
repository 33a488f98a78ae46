/-
# Rules

A rule is one row of a rule list.  The row

    search /// replacement

asks to replace what `search` finds, and a row without `///` asks to mark it.  A search
that begins with `[line]` looks at whole lines, and the replacement `[del]` deletes.  A
row that begins with `///` is a comment.  Blanks around the row and around both halves
do not count.
-/
import RuleSweep.Text.Blank

namespace RuleSweep

/-- The mark between the two halves of a rule, which also opens a comment. -/
def separatorMark : Text := "///".toList

/-- The mark in front of a search for whole lines; in a replacement it stands for the
line. -/
def lineMark : Text := "[line]".toList

/-- The replacement that deletes. -/
def deleteMark : Text := "[del]".toList

/-- What a rule looks at: stretches of the text, or whole lines. -/
inductive Scope where
  /-- Any stretch of the source. -/
  | text
  /-- A whole line, if the search finds something inside it. -/
  | line
  deriving DecidableEq, Repr

/-- What a rule does with what it finds. -/
inductive Action where
  /-- Keep it and mark it. -/
  | mark
  /-- Put a replacement in its place.  If `deletes` holds, an empty replacement of a
  line takes the line's terminator with it. -/
  | replace (replacement : Text) (deletes : Bool)
  deriving DecidableEq, Repr

/-- A rule, as one row of a rule list gives it. -/
structure Rule where
  /-- The search half as written, with the line mark. -/
  search : Text
  /-- What the rule looks at. -/
  scope : Scope
  /-- What it does with what it finds. -/
  action : Action
  /-- The number of its row. -/
  number : Int
  /-- Its row, without the blanks around it. -/
  row : Text
  deriving DecidableEq, Repr

namespace Rule

/-- What the rule searches for: the search half without the line mark. -/
def body (rule : Rule) : Text :=
  match rule.scope with
  | .line => Text.trim (rule.search.drop lineMark.length)
  | .text => rule.search

/-- The rule replaces what it finds. -/
def replaces (rule : Rule) : Bool :=
  match rule.action with
  | .mark => false
  | .replace _ _ => true

/-- The rule deletes the lines that it empties. -/
def deletes (rule : Rule) : Bool :=
  match rule.action with
  | .mark => false
  | .replace _ deletes => deletes

/-- The replacement half; a rule that marks puts its own search half back. -/
def replacement (rule : Rule) : Text :=
  match rule.action with
  | .mark => rule.search
  | .replace replacement _ => replacement

/-! ## Reading a rule list -/

/-- The action that a replacement half asks for. -/
def actionOf (replacement : Text) : Action :=
  if replacement = deleteMark then .replace [] true else .replace replacement false

/-- The search half and the action of a row without blanks around it. -/
def halves (row : Text) : Text × Action :=
  match Text.cutAt? separatorMark row with
  | none => (row, .mark)
  | some (search, replacement) => (search.trim, actionOf replacement.trim)

/-- The scope that a search half asks for. -/
def scopeOf (search : Text) : Scope :=
  if lineMark.isPrefixOf search then .line else .text

/-- The rule on a row, if there is one: blank rows and comments hold none, and neither
does a search for whole lines that names nothing to search for. -/
def ofRow? (number : Int) (row : Text) : Option Rule :=
  let row := row.trim
  if row.isEmpty || separatorMark.isPrefixOf row then none
  else
    let (search, action) := halves row
    let rule : Rule := ⟨search, scopeOf search, action, number, row⟩
    if rule.body.isEmpty then none else some rule

/-- The rules on rows that are numbered from `number` on. -/
def ofRows (number : Int) : List Text → List Rule
  | [] => []
  | row :: rows =>
    match ofRow? number row with
    | some rule => rule :: ofRows (number + 1) rows
    | none => ofRows (number + 1) rows

/-- The rules of a rule list, whose rows are numbered from one. -/
def ofList (list : Text) : List Rule :=
  ofRows 1 list.rows

end Rule

end RuleSweep
