/-
# Rules on single rows

A text can be the search half of a row if it is not empty, has no blanks around it, and does
not hold the mark between two halves (`Text.IsHalf`); if it holds no newline either, it can
stand in a rule list (`Text.IsSearch`).  As a rule list it holds one rule, which marks what the
text searches for, unless the text is no more than the mark of a search for whole lines:
`Rule.ofList_of_isSearch`.  With a replacement behind it, it is the rule that replaces:
`Rule.ofRow?_rowOf`.  What the rule on any row is made of says `Rule.ofRow?_eq_some_iff`.
-/
import RuleSweep.Proofs.Text.Cut
import RuleSweep.Proofs.Text.Trim
import RuleSweep.Rule

namespace RuleSweep

namespace Text

/-- A text that can stand in front of the mark between two halves. -/
structure IsHalf (t : Text) : Prop where
  /-- There is something to search for. -/
  ne_nil : t ≠ []
  /-- There are no blanks around it. -/
  trim : t.trim = t
  /-- It does not begin another half, and it is no comment. -/
  separator : ¬ separatorMark <:+: t

/-- A text that can stand on a row as a search half. -/
structure IsSearch (t : Text) : Prop where
  /-- There is something to search for. -/
  ne_nil : t ≠ []
  /-- There are no blanks around it. -/
  trim : t.trim = t
  /-- It stands on one row. -/
  newline : '\n' ∉ t
  /-- It does not begin another half, and it is no comment. -/
  separator : ¬ separatorMark <:+: t

/-- A text that can stand on a row as a search half is a half. -/
theorem IsSearch.isHalf {t : Text} (h : t.IsSearch) : t.IsHalf :=
  ⟨h.ne_nil, h.trim, h.separator⟩

/-- What begins with a half and a blank is no comment. -/
theorem IsHalf.not_isPrefix {t : Text} (h : t.IsHalf) (rest : Text) :
    ¬ separatorMark <+: t ++ ' ' :: rest :=
  fun hprefix => h.separator (isPrefix_of_append_cons (by decide) hprefix).isInfix

/-- A text without newlines is a single row. -/
theorem rows_of_notMem {t : Text} (h : '\n' ∉ t) : t.rows = [t] :=
  cutEvery_of_notMem h

end Text

namespace Rule

/-- A rule for text searches for its search half. -/
theorem body_of_text {rule : Rule} (h : rule.scope = .text) : rule.body = rule.search := by
  rw [body, h]

/-! ## Any row -/

/-- **The rule on a row** is made of the two halves of the row, which is neither blank nor a
comment, and it has something to search for. -/
theorem ofRow?_eq_some_iff {number : Int} {row : Text} {rule : Rule} :
    ofRow? number row = some rule ↔
      rule = ⟨(halves row.trim).1, scopeOf (halves row.trim).1, (halves row.trim).2, number,
        row.trim⟩ ∧
      row.trim ≠ [] ∧ ¬ separatorMark <+: row.trim ∧ rule.body ≠ [] := by
  simp only [ofRow?]
  by_cases hrow : row.trim ≠ [] ∧ ¬ separatorMark <+: row.trim
  · have hcomment : separatorMark.isPrefixOf row.trim = false := by
      rw [Bool.eq_false_iff, ne_eq, List.isPrefixOf_iff_prefix]
      exact hrow.2
    rw [List.isEmpty_eq_false_iff.mpr hrow.1, hcomment]
    simp only [Bool.or_self, Bool.false_eq_true, if_false, List.isEmpty_iff]
    constructor
    · intro h
      split at h
      · exact absurd h (by simp)
      · next hbody =>
        rw [Option.some.injEq] at h
        exact ⟨h.symm, hrow.1, hrow.2, h ▸ hbody⟩
    · rintro ⟨rfl, -, -, hbody⟩
      rw [if_neg hbody]
  · have hnone : (row.trim.isEmpty || separatorMark.isPrefixOf row.trim) = true := by
      rw [Bool.or_eq_true, List.isEmpty_iff, List.isPrefixOf_iff_prefix]
      by_cases hblank : row.trim = []
      · exact Or.inl hblank
      · exact Or.inr (not_not.mp fun hcomment => hrow ⟨hblank, hcomment⟩)
    rw [hnone, if_pos rfl]
    constructor
    · exact fun h => absurd h (by simp)
    · exact fun h => absurd ⟨h.2.1, h.2.2.1⟩ hrow

/-- What is known of the rule on a row. -/
theorem of_ofRow?_eq_some {number : Int} {row : Text} {rule : Rule}
    (h : ofRow? number row = some rule) :
    rule = ⟨(halves row.trim).1, scopeOf (halves row.trim).1, (halves row.trim).2, number,
        row.trim⟩ ∧
      row.trim ≠ [] ∧ ¬ separatorMark <+: row.trim ∧ rule.body ≠ [] :=
  ofRow?_eq_some_iff.mp h

/-! ## Rows with a search half only -/

/-- The rule that marks what a search half searches for. -/
def marking (number : Int) (search : Text) : Rule :=
  ⟨search, scopeOf search, .mark, number, search⟩

/-- A search half that does not ask for whole lines looks at any stretch of the text. -/
theorem scope_marking {t : Text} (hline : ¬ lineMark <+: t) (number : Int) :
    (marking number t).scope = .text :=
  if_neg (by simpa [List.isPrefixOf_iff_prefix] using hline)

/-- A search half that does not ask for whole lines searches for itself. -/
theorem body_marking {t : Text} (hline : ¬ lineMark <+: t) (number : Int) :
    (marking number t).body = t :=
  body_of_text (scope_marking hline number)

/-- A search half behind the mark for whole lines looks at whole lines. -/
theorem scopeOf_lineMark_append (t : Text) : scopeOf (lineMark ++ t) = .line := by
  rw [scopeOf, if_pos (List.isPrefixOf_iff_prefix.mpr (List.prefix_append lineMark t))]

/-- A search half behind the mark for whole lines is what the rule searches for. -/
theorem body_marking_lineMark_append {t : Text} (htrim : t.trim = t) (number : Int) :
    (marking number (lineMark ++ t)).body = t := by
  have hscope : (marking number (lineMark ++ t)).scope = .line := scopeOf_lineMark_append t
  have hdrop : (lineMark ++ t).drop lineMark.length = t := List.drop_left
  rw [body, hscope]
  show Text.trim ((lineMark ++ t).drop lineMark.length) = t
  rw [hdrop, htrim]

/-- The halves of a search half alone. -/
theorem halves_of_isHalf {t : Text} (h : t.IsHalf) : halves t = (t, .mark) := by
  rw [halves, Text.cutAt?_eq_none_iff.mpr h.separator]

/-- The rule on a row that holds a search half only, if there is something to search for. -/
theorem ofRow?_of_isHalf {t : Text} (h : t.IsHalf) {number : Int}
    (hbody : (marking number t).body ≠ []) : ofRow? number t = some (marking number t) := by
  rw [ofRow?_eq_some_iff, h.trim, halves_of_isHalf h]
  exact ⟨rfl, h.ne_nil, fun hcomment => h.separator hcomment.isInfix, hbody⟩

/-- **A search half alone is a rule list with one rule**, if there is something to search for. -/
theorem ofList_of_body {t : Text} (h : t.IsSearch) (hbody : (marking 1 t).body ≠ []) :
    ofList t = [marking 1 t] := by
  rw [ofList, Text.rows_of_notMem h.newline, ofRows, ofRow?_of_isHalf h.isHalf hbody]
  rfl

/-- A search half alone is a rule list with one rule, which looks at any stretch of the text if
the half does not ask for whole lines. -/
theorem ofList_of_isSearch {t : Text} (h : t.IsSearch) (hline : ¬ lineMark <+: t) :
    ofList t = [marking 1 t] := by
  refine ofList_of_body h ?_
  rw [body_marking hline]
  exact h.ne_nil

/-! ## Rows with two halves -/

/-- A row with a search half and a replacement half, and blanks between them. -/
def rowOf (search replacement : Text) : Text :=
  search ++ ' ' :: (separatorMark ++ ' ' :: replacement)

section RowOf

variable {search replacement : Text} (h : search.IsHalf) (htrim : replacement.trim = replacement)
include h

/-- The halves of a row are what stands in front of its mark and behind it. -/
theorem halves_append (behind : Text) :
    halves (search ++ ' ' :: (separatorMark ++ behind)) = (search, actionOf behind.trim) := by
  have hcut : Text.cutAt? separatorMark (search ++ ' ' :: (separatorMark ++ behind))
      = some (search ++ [' '], behind) :=
    Text.cutAt?_append_cons (by decide) (by decide) h.separator _
  rw [halves, hcut]
  simp only
  rw [Text.trim_append_of_isBlank (by decide) h.ne_nil h.trim]

include htrim

/-- There are no blanks around a row that is made of two halves, unless the second one is
empty. -/
theorem trim_rowOf : (rowOf search replacement).trim
    = if replacement = [] then search ++ ' ' :: separatorMark else rowOf search replacement := by
  have hfirst : ∀ rest : Text, ∀ c ∈ (search ++ rest).head?, isBlank c = false := by
    intro rest
    rw [List.head?_append_of_ne_nil search h.ne_nil]
    exact Text.isBlank_head?_of_trim h.trim
  split
  · next hreplacement =>
    have hrow : rowOf search replacement = search ++ ' ' :: separatorMark ++ [' '] := by
      simp [rowOf, hreplacement]
    have hlast : ∀ c ∈ (search ++ ' ' :: separatorMark).getLast?, isBlank c = false := by
      rw [List.getLast?_append_of_ne_nil search (List.cons_ne_nil _ _)]
      intro c hc
      have hslash : '/' = c := Option.some.inj hc
      rw [← hslash]
      decide
    rw [hrow]
    exact Text.trim_append_of_isBlank (by decide)
      (List.append_ne_nil_of_left_ne_nil h.ne_nil _) (Text.trim_eq_self (hfirst _) hlast)
  · next hreplacement =>
    have hrow : rowOf search replacement
        = search ++ ' ' :: (separatorMark ++ [' ']) ++ replacement := by
      simp [rowOf]
    refine Text.trim_eq_self (hfirst _) ?_
    rw [hrow, List.getLast?_append_of_ne_nil _ hreplacement]
    exact Text.isBlank_getLast?_of_trim htrim

/-- The halves of a row are those that it is made of. -/
theorem halves_trim_rowOf :
    halves (rowOf search replacement).trim = (search, actionOf replacement) := by
  rw [trim_rowOf h htrim]
  split
  · next hreplacement =>
    have hhalves := halves_append h []
    rw [List.append_nil] at hhalves
    rw [hhalves, hreplacement]
    rfl
  · rw [rowOf, halves_append h, Text.trim_cons_of_isBlank (by decide), htrim]

/-- **A row that is made of two halves is the rule that replaces what the one searches for by
the other**, if there is something to search for. -/
theorem ofRow?_rowOf {number : Int} (hbody : (marking number search).body ≠ []) :
    ofRow? number (rowOf search replacement)
      = some ⟨search, scopeOf search, actionOf replacement, number,
          (rowOf search replacement).trim⟩ := by
  rw [ofRow?_eq_some_iff, halves_trim_rowOf h htrim]
  refine ⟨rfl, ?_, ?_, hbody⟩
  · rw [trim_rowOf h htrim]
    split <;> exact List.append_ne_nil_of_left_ne_nil h.ne_nil _
  · rw [trim_rowOf h htrim]
    split <;> exact h.not_isPrefix _

end RowOf

/-- A row that is made of two halves is a rule list with one rule. -/
theorem ofList_rowOf {search replacement : Text} (h : search.IsSearch)
    (hbody : (marking 1 search).body ≠ []) (hne : replacement ≠ [])
    (htrim : replacement.trim = replacement) (hnewline : '\n' ∉ replacement) :
    ofList (rowOf search replacement)
      = [⟨search, scopeOf search, actionOf replacement, 1, rowOf search replacement⟩] := by
  have hrow : '\n' ∉ rowOf search replacement := by
    simp [rowOf, separatorMark, h.newline, hnewline]
  rw [ofList, Text.rows_of_notMem hrow, ofRows, ofRow?_rowOf h.isHalf htrim hbody,
    trim_rowOf h.isHalf htrim, if_neg hne]
  rfl

end Rule

end RuleSweep
