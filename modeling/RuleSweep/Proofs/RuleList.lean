/-
# The matchers of a rule list

A matcher made from a rule searches for the body of that rule, and its pattern is solid.
The rows of a rule list hold no newline, so the patterns of the matchers made from a rule
list also stay within lines: `RuleSet.withinLine_of_ofList`.
-/
import RuleSweep.Proofs.Pattern.Bounds
import RuleSweep.Proofs.Rule.Row
import RuleSweep.Matcher

namespace RuleSweep

/-! ## Rules -/

namespace Rule

/-- The search half of a row holds only characters of the row. -/
theorem mem_of_mem_halves {c : Char} {row : Text} (h : c ∈ (halves row).1) : c ∈ row := by
  rw [halves] at h
  split at h
  · exact h
  · next before after hcut =>
    rw [← Text.append_of_cutAt? hcut]
    simp [Text.mem_of_mem_trim h]

/-- The body of a rule holds only characters of its search half. -/
theorem mem_of_mem_body {c : Char} {rule : Rule} (h : c ∈ rule.body) : c ∈ rule.search := by
  rw [body] at h
  split at h
  · exact (List.drop_sublist _ _).subset (Text.mem_of_mem_trim h)
  · exact h

/-- The body of the rule on a row holds only characters of the row. -/
theorem mem_of_mem_body_ofRow? {c : Char} {number : Int} {row : Text} {rule : Rule}
    (hrule : ofRow? number row = some rule) (h : c ∈ rule.body) : c ∈ row := by
  obtain ⟨rfl, -⟩ := of_ofRow?_eq_some hrule
  exact Text.mem_of_mem_trim (mem_of_mem_halves (mem_of_mem_body h))

/-- Every rule on some rows stands on one of them. -/
theorem exists_row_of_mem_ofRows {number : Int} {rows : List Text} {rule : Rule}
    (h : rule ∈ ofRows number rows) : ∃ row ∈ rows, ∃ n, ofRow? n row = some rule := by
  induction rows generalizing number with
  | nil => simp [ofRows] at h
  | cons row rows ih =>
    rw [ofRows] at h
    split at h
    · next rule' hrule' =>
      rcases List.mem_cons.mp h with rfl | h
      · exact ⟨row, List.mem_cons_self, number, hrule'⟩
      · obtain ⟨row', hrow', hn⟩ := ih h
        exact ⟨row', List.mem_cons_of_mem row hrow', hn⟩
    · obtain ⟨row', hrow', hn⟩ := ih h
      exact ⟨row', List.mem_cons_of_mem row hrow', hn⟩

/-- No rule of a rule list searches for a newline. -/
theorem newline_notMem_body {list : Text} {rule : Rule} (h : rule ∈ ofList list) :
    '\n' ∉ rule.body := by
  obtain ⟨row, hrow, n, hrule⟩ := exists_row_of_mem_ofRows h
  intro hmem
  exact Text.notMem_of_mem_cutEvery hrow (mem_of_mem_body_ofRow? hrule hmem)

end Rule

/-! ## Matchers -/

namespace Matcher

/-- The matcher of a rule holds the rule, and the pattern of its body. -/
theorem of_ofRule {rule : Rule} {matcher : Matcher} (h : ofRule rule = .ok matcher) :
    matcher.rule = rule ∧ Pattern.ofSearch? rule.body = some matcher.pattern := by
  rw [ofRule] at h
  split at h
  · exact absurd h (by simp)
  · next pattern hpattern =>
    split at h
    · exact absurd h (by simp)
    · rw [Except.ok.injEq] at h
      subst h
      exact ⟨rfl, hpattern⟩

/-- The pattern of a matcher that was made from a rule is solid. -/
theorem solid_of_ofRule {rule : Rule} {matcher : Matcher} (h : ofRule rule = .ok matcher) :
    matcher.pattern.Solid :=
  Pattern.solid_of_ofSearch? (of_ofRule h).2

/-- Rules and their matchers correspond one by one. -/
theorem forall₂_of_mapM_ofRule {rules : List Rule} {matchers : List Matcher}
    (h : rules.mapM ofRule = .ok matchers) :
    List.Forall₂ (fun rule matcher => ofRule rule = .ok matcher) rules matchers := by
  induction rules generalizing matchers with
  | nil =>
    rw [List.mapM_nil] at h
    cases h
    exact .nil
  | cons rule rules ih =>
    rw [List.mapM_cons] at h
    cases hrule : ofRule rule with
    | error e => simp [hrule, bind, Except.bind] at h
    | ok matcher =>
      cases hrules : rules.mapM ofRule with
      | error e => simp [hrule, hrules, bind, Except.bind] at h
      | ok others =>
        simp only [hrule, hrules, bind, Except.bind, pure, Except.pure, Except.ok.injEq] at h
        subst h
        exact .cons hrule (ih hrules)

/-- Every matcher was made from one of the rules. -/
theorem exists_rule_of_mapM_ofRule {rules : List Rule} {matchers : List Matcher}
    (h : rules.mapM ofRule = .ok matchers) :
    ∀ matcher ∈ matchers, ∃ rule ∈ rules, ofRule rule = .ok matcher := by
  have hall := forall₂_of_mapM_ofRule h
  clear h
  induction hall with
  | nil => simp
  | @cons rule matcher rules matchers hrule _ ih =>
    rw [List.forall_mem_cons]
    refine ⟨⟨rule, List.mem_cons_self, hrule⟩, fun other hother => ?_⟩
    obtain ⟨rule', hmem, hrule'⟩ := ih other hother
    exact ⟨rule', List.mem_cons_of_mem rule hmem, hrule'⟩

/-- Every rule was made into one of the matchers. -/
theorem exists_matcher_of_mapM_ofRule {rules : List Rule} {matchers : List Matcher}
    (h : rules.mapM ofRule = .ok matchers) :
    ∀ rule ∈ rules, ∃ matcher ∈ matchers, ofRule rule = .ok matcher := by
  have hall := forall₂_of_mapM_ofRule h
  clear h
  induction hall with
  | nil => simp
  | @cons rule matcher rules matchers hrule _ ih =>
    rw [List.forall_mem_cons]
    refine ⟨⟨matcher, List.mem_cons_self, hrule⟩, fun other hother => ?_⟩
    obtain ⟨matcher', hmem, hmatcher'⟩ := ih other hother
    exact ⟨matcher', List.mem_cons_of_mem matcher hmem, hmatcher'⟩

/-- The patterns of matchers that were made from rules are solid. -/
theorem solid_of_mapM_ofRule {rules : List Rule} {matchers : List Matcher}
    (h : rules.mapM ofRule = .ok matchers) : ∀ matcher ∈ matchers, matcher.pattern.Solid := by
  intro matcher hmatcher
  obtain ⟨rule, -, hrule⟩ := exists_rule_of_mapM_ofRule h matcher hmatcher
  exact solid_of_ofRule hrule

end Matcher

/-! ## Rule sets -/

/-- The numeral that keeps a rule from having a matcher, if that is what keeps it. -/
def Rule.fault? (rule : Rule) : Option NumeralTooLong :=
  match Matcher.ofRule rule with
  | .error (.numeral e) => some e
  | _ => none

/-- The rule has nothing to search for. -/
def Rule.isVoid (rule : Rule) : Bool :=
  (Pattern.ofSearch? rule.body).isNone

/-- The matcher of a rule, if it has one. -/
def Matcher.ofRule? (rule : Rule) : Option Matcher :=
  (Matcher.ofRule rule).toOption

namespace RuleSet

/-- **The rule set of some rules in closed form.**  The first numeral that is too long spoils
it; if there is none, it holds the matchers of the rules that have one, and the rules that
have nothing to search for. -/
theorem ofRules_eq (rules : List Rule) :
    ofRules rules
      = match rules.findSome? Rule.fault? with
        | some e => .error e
        | none => .ok ⟨rules.filterMap Matcher.ofRule?, rules.filter Rule.isVoid⟩ := by
  induction rules with
  | nil => rfl
  | cons rule rules ih =>
    rw [ofRules, ih, List.findSome?_cons, List.filterMap_cons, List.filter_cons, Rule.fault?,
      Matcher.ofRule?, Rule.isVoid, Matcher.ofRule]
    cases Pattern.ofSearch? rule.body with
    | none => cases rules.findSome? Rule.fault? <;> rfl
    | some pattern =>
      simp only
      cases Matcher.templateOf rule pattern.wildcards with
      | error e => rfl
      | ok template => cases rules.findSome? Rule.fault? <;> rfl

/-- A rule set is made exactly if no numeral spoils it. -/
theorem ofRules_eq_ok_iff {rules : List Rule} {set : RuleSet} :
    ofRules rules = .ok set ↔ rules.findSome? Rule.fault? = none ∧
      set = ⟨rules.filterMap Matcher.ofRule?, rules.filter Rule.isVoid⟩ := by
  rw [ofRules_eq]
  cases rules.findSome? Rule.fault? with
  | none => simp [eq_comm]
  | some e => simp

/-- Every matcher of a rule set was made from one of its rules. -/
theorem exists_rule_of_ofRules {rules : List Rule} {set : RuleSet} (h : ofRules rules = .ok set) :
    ∀ matcher ∈ set.matchers, ∃ rule ∈ rules, Matcher.ofRule rule = .ok matcher := by
  obtain ⟨-, rfl⟩ := ofRules_eq_ok_iff.mp h
  intro matcher hmatcher
  obtain ⟨rule, hmem, hrule⟩ := List.mem_filterMap.mp hmatcher
  refine ⟨rule, hmem, ?_⟩
  rw [Matcher.ofRule?] at hrule
  cases hof : Matcher.ofRule rule with
  | error fault => simp [hof, Except.toOption] at hrule
  | ok made => simpa [hof, Except.toOption] using hrule

/-- The patterns of a rule list are solid. -/
theorem solid_of_ofList {list : Text} {set : RuleSet} (h : ofList list = .ok set) :
    ∀ matcher ∈ set.matchers, matcher.pattern.Solid := by
  intro matcher hmatcher
  obtain ⟨rule, -, hrule⟩ := exists_rule_of_ofRules h matcher hmatcher
  exact Matcher.solid_of_ofRule hrule

/-- The patterns of a rule list stay within lines. -/
theorem withinLine_of_ofList {list : Text} {set : RuleSet} (h : ofList list = .ok set) :
    ∀ matcher ∈ set.matchers, matcher.pattern.WithinLine := by
  intro matcher hmatcher
  obtain ⟨rule, hmem, hrule⟩ := exists_rule_of_ofRules h matcher hmatcher
  exact Pattern.withinLine_of_ofSearch? (Matcher.of_ofRule hrule).2
    (Rule.newline_notMem_body hmem)

end RuleSet

end RuleSweep
