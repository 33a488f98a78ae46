/-
# Rule lists that mark

If every row of a rule list is a search half, every row is a rule that marks.  Search terms
make up such a list in two ways: as rules for text the way they are, and as rules for lines
with the mark for whole lines in front (`Scope.mark`).  Either way the list gives a rule set,
whose matchers search for what the terms stand for: `RuleSet.exists_searchesFor`.
-/
import RuleSweep.Proofs.Rule.Row
import RuleSweep.Proofs.RuleList

namespace RuleSweep

/-! ## Search terms behind the mark for whole lines -/

namespace Text

/-- A search half stays one behind the mark for whole lines. -/
theorem IsSearch.append_lineMark {t : Text} (h : t.IsSearch) : IsSearch (lineMark ++ t) where
  ne_nil := List.append_ne_nil_of_right_ne_nil lineMark h.ne_nil
  trim := by
    apply trim_eq_self
    · intro c hc
      have hbracket : '[' = c := Option.some.inj hc
      rw [← hbracket]
      decide
    · rw [List.getLast?_append_of_ne_nil lineMark h.ne_nil]
      exact isBlank_getLast?_of_trim h.trim
  newline := by
    rw [List.mem_append, not_or]
    exact ⟨by decide, h.newline⟩
  separator := fun hoccurs => h.separator (isInfix_of_append (by decide) hoccurs)

end Text

/-- What stands in front of a search term so that it looks at the given scope. -/
def Scope.mark : Scope → Text
  | .text => []
  | .line => lineMark

namespace Rule

section Scope

variable {t : Text} (h : t.IsSearch) (hline : ¬ lineMark <+: t) (scope : Scope) (number : Int)

include h in
/-- A search term with the mark of a scope is a search half. -/
theorem isSearch_mark_append : Text.IsSearch (scope.mark ++ t) := by
  cases scope with
  | text => exact h
  | line => exact h.append_lineMark

include hline in
/-- A search term with the mark of a scope looks at this scope. -/
theorem scope_marking_mark_append : (marking number (scope.mark ++ t)).scope = scope := by
  cases scope with
  | text => exact scope_marking hline number
  | line => exact scopeOf_lineMark_append t

include h hline in
/-- A search term with the mark of a scope searches for itself. -/
theorem body_marking_mark_append : (marking number (scope.mark ++ t)).body = t := by
  cases scope with
  | text => exact body_marking hline number
  | line => exact body_marking_lineMark_append h.trim number

end Scope

/-! ## Rows that mark -/

/-- The rules that mark what rows search for, numbered from a number on. -/
def markings (number : Int) : List Text → List Rule
  | [] => []
  | row :: rows => marking number row :: markings (number + 1) rows

/-- A rule that marks stands on one of the rows. -/
theorem exists_row_of_mem_markings {number : Int} {rows : List Text} {rule : Rule}
    (h : rule ∈ markings number rows) : ∃ n, ∃ row ∈ rows, rule = marking n row := by
  induction rows generalizing number with
  | nil => exact absurd h List.not_mem_nil
  | cons row rows ih =>
    rcases List.mem_cons.mp h with rfl | hlater
    · exact ⟨number, row, List.mem_cons_self, rfl⟩
    · obtain ⟨n, other, hother, heq⟩ := ih hlater
      exact ⟨n, other, List.mem_cons_of_mem row hother, heq⟩

/-- Every row has its rule that marks. -/
theorem exists_marking_mem_markings {rows : List Text} {row : Text} (h : row ∈ rows)
    (number : Int) : ∃ n, marking n row ∈ markings number rows := by
  induction rows generalizing number with
  | nil => exact absurd h List.not_mem_nil
  | cons first rows ih =>
    rcases List.mem_cons.mp h with rfl | hlater
    · exact ⟨number, List.mem_cons_self⟩
    · obtain ⟨n, hmem⟩ := ih hlater (number + 1)
      exact ⟨n, List.mem_cons_of_mem _ hmem⟩

/-- Rows that are search halves with something to search for are rules that mark. -/
theorem ofRows_eq_markings {rows : List Text} (h : ∀ row ∈ rows, row.IsSearch)
    (hbody : ∀ row ∈ rows, ∀ number, (marking number row).body ≠ []) (number : Int) :
    ofRows number rows = markings number rows := by
  induction rows generalizing number with
  | nil => rfl
  | cons row rows ih =>
    rw [List.forall_mem_cons] at h hbody
    have hrow := ofRow?_of_isHalf h.1.isHalf (hbody.1 number)
    rw [ofRows, hrow, markings]
    simp only
    rw [ih h.2 hbody.2]

/-! ## The rules of search terms -/

/-- The rules that mark what search terms stand for in the given scope. -/
def ofTerms (scope : Scope) (terms : List Text) : List Rule :=
  markings 1 (terms.map (scope.mark ++ ·))

section Terms

variable {terms : List Text} (h : ∀ term ∈ terms, term.IsSearch ∧ ¬ lineMark <+: term)
  (scope : Scope)
include h

/-- Search terms, each with the mark of a scope in front, are a rule list. -/
theorem ofList_terms :
    ofList (Text.joinWith ['\n'] (terms.map (scope.mark ++ ·))) = ofTerms scope terms := by
  have hrows : ∀ row ∈ terms.map (scope.mark ++ ·), row.IsSearch := by
    rw [List.forall_mem_map]
    intro term hterm
    exact isSearch_mark_append (h term hterm).1 scope
  have hbody : ∀ row ∈ terms.map (scope.mark ++ ·), ∀ number, (marking number row).body ≠ [] := by
    rw [List.forall_mem_map]
    intro term hterm number
    obtain ⟨hsearch, hline⟩ := h term hterm
    rw [body_marking_mark_append hsearch hline]
    exact hsearch.ne_nil
  by_cases hterms : terms = []
  · rw [hterms]
    rfl
  · have hne : terms.map (scope.mark ++ ·) ≠ [] := by
      rw [ne_eq, List.map_eq_nil_iff]
      exact hterms
    rw [ofList, Text.rows, Text.cutEvery_joinWith hne fun row hrow => (hrows row hrow).newline,
      ofRows_eq_markings hrows hbody, ofTerms]

/-- The rule of a search term marks, looks at the scope, and searches for the term. -/
theorem of_mem_ofTerms {rule : Rule} (hrule : rule ∈ ofTerms scope terms) :
    rule.action = .mark ∧ rule.scope = scope ∧ rule.body ∈ terms := by
  obtain ⟨n, row, hrow, rfl⟩ := exists_row_of_mem_markings hrule
  obtain ⟨term, hterm, rfl⟩ := List.mem_map.mp hrow
  obtain ⟨hsearch, hline⟩ := h term hterm
  refine ⟨rfl, scope_marking_mark_append hline scope n, ?_⟩
  rw [body_marking_mark_append hsearch hline]
  exact hterm

/-- Every search term has its rule. -/
theorem exists_mem_ofTerms {term : Text} (hterm : term ∈ terms) :
    ∃ rule ∈ ofTerms scope terms, rule.body = term := by
  obtain ⟨hsearch, hline⟩ := h term hterm
  have hrow : scope.mark ++ term ∈ terms.map (scope.mark ++ ·) := List.mem_map_of_mem hterm
  obtain ⟨n, hmem⟩ := exists_marking_mem_markings hrow 1
  exact ⟨_, hmem, body_marking_mark_append hsearch hline scope n⟩

end Terms

end Rule

/-! ## Their matchers -/

/-- The matcher of a rule that marks, if it has anything to search for. -/
theorem Matcher.ofRule?_of_marks {rule : Rule} (h : rule.action = .mark) :
    ofRule? rule = (Pattern.ofSearch? rule.body).map fun pattern => ⟨rule, pattern, []⟩ := by
  rw [ofRule?, ofRule]
  cases Pattern.ofSearch? rule.body with
  | none => rfl
  | some pattern =>
    simp only [templateOf, h]
    rfl

/-- A rule that marks does not spoil a rule list. -/
theorem Rule.fault?_of_marks {rule : Rule} (h : rule.action = .mark) : rule.fault? = none := by
  rw [fault?, Matcher.ofRule]
  cases Pattern.ofSearch? rule.body with
  | none => rfl
  | some pattern =>
    simp only [Matcher.templateOf, h]

/-- Matchers that mark, in the given scope, what some search terms stand for. -/
structure SearchesFor (scope : Scope) (terms : List Text) (matchers : List Matcher) : Prop where
  /-- They only mark. -/
  marks : ∀ matcher ∈ matchers, matcher.rule.replaces = false
  /-- They all look at the scope. -/
  scope : ∀ matcher ∈ matchers, matcher.rule.scope = scope
  /-- Their patterns are those of the terms that have one. -/
  search : ∀ pattern, (∃ matcher ∈ matchers, matcher.pattern = pattern) ↔
    ∃ term ∈ terms, Pattern.ofSearch? term = some pattern

/-- The matchers of rules that mark are made of those that have something to search for. -/
theorem Matcher.mem_filterMap_ofRule? {rules : List Rule} (h : ∀ rule ∈ rules, rule.action = .mark)
    {matcher : Matcher} :
    matcher ∈ rules.filterMap ofRule? ↔
      ∃ rule ∈ rules, Pattern.ofSearch? rule.body = some matcher.pattern ∧
        matcher = ⟨rule, matcher.pattern, []⟩ := by
  rw [List.mem_filterMap]
  constructor
  · rintro ⟨rule, hrule, hof⟩
    rw [ofRule?_of_marks (h rule hrule), Option.map_eq_some_iff] at hof
    obtain ⟨pattern, hpattern, rfl⟩ := hof
    exact ⟨rule, hrule, hpattern, rfl⟩
  · rintro ⟨rule, hrule, hpattern, hmatcher⟩
    refine ⟨rule, hrule, ?_⟩
    rw [ofRule?_of_marks (h rule hrule), hpattern, hmatcher]
    rfl

/-- **Search terms, each with the mark of a scope in front, are a rule list whose matchers mark
what the terms stand for.** -/
theorem RuleSet.exists_searchesFor {terms : List Text}
    (h : ∀ term ∈ terms, term.IsSearch ∧ ¬ lineMark <+: term) (scope : Scope) :
    ∃ set, RuleSet.ofList (Text.joinWith ['\n'] (terms.map (scope.mark ++ ·))) = .ok set ∧
      SearchesFor scope terms set.matchers := by
  have hmarks : ∀ rule ∈ Rule.ofTerms scope terms, rule.action = .mark := by
    intro rule hrule
    exact (Rule.of_mem_ofTerms h scope hrule).1
  have hset : RuleSet.ofRules (Rule.ofTerms scope terms)
      = .ok ⟨(Rule.ofTerms scope terms).filterMap Matcher.ofRule?,
          (Rule.ofTerms scope terms).filter Rule.isVoid⟩ := by
    rw [ofRules_eq_ok_iff, List.findSome?_eq_none_iff]
    exact ⟨fun rule hrule => Rule.fault?_of_marks (hmarks rule hrule), rfl⟩
  rw [ofList, Rule.ofList_terms h]
  refine ⟨_, hset, ?_, ?_, ?_⟩
  · intro matcher hmatcher
    obtain ⟨rule, hrule, -, heq⟩ := (Matcher.mem_filterMap_ofRule? hmarks).mp hmatcher
    rw [heq, Rule.replaces, hmarks rule hrule]
  · intro matcher hmatcher
    obtain ⟨rule, hrule, -, heq⟩ := (Matcher.mem_filterMap_ofRule? hmarks).mp hmatcher
    rw [heq]
    exact (Rule.of_mem_ofTerms h scope hrule).2.1
  · intro pattern
    constructor
    · rintro ⟨matcher, hmatcher, rfl⟩
      obtain ⟨rule, hrule, hpattern, -⟩ := (Matcher.mem_filterMap_ofRule? hmarks).mp hmatcher
      exact ⟨rule.body, (Rule.of_mem_ofTerms h scope hrule).2.2, hpattern⟩
    · rintro ⟨term, hterm, hpattern⟩
      obtain ⟨rule, hrule, hbody⟩ := Rule.exists_mem_ofTerms h scope hterm
      refine ⟨⟨rule, pattern, []⟩, ?_, rfl⟩
      rw [Matcher.mem_filterMap_ofRule? hmarks]
      exact ⟨rule, hrule, by rw [hbody, hpattern], rfl⟩

end RuleSweep
