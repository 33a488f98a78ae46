/-
# Matchers

A matcher is a rule together with the pattern and the template that its halves stand
for.  A rule whose search holds nothing to search for has no matcher: it is skipped, and
the others stay.  A rule with a capture number that is too long spoils the whole list.
-/
import RuleSweep.Template.Reading
import RuleSweep.Text.Quoted

namespace RuleSweep

/-- A rule that is ready to be applied. -/
structure Matcher where
  /-- The rule. -/
  rule : Rule
  /-- What it searches for. -/
  pattern : Pattern
  /-- What it puts in the place of what it finds, if it replaces. -/
  template : Template
  deriving DecidableEq, Repr

/-- Why a rule has no matcher. -/
inductive RuleFault where
  /-- The search text has no alternative to search for. -/
  | nothingToFind (body : Text)
  /-- The replacement names a capture by a numeral that is too long. -/
  | numeral (e : NumeralTooLong)
  deriving DecidableEq, Repr

/-- What is said of a rule that has no matcher. -/
def RuleFault.message : RuleFault → Text
  | .nothingToFind body => "No searchable alternatives in ".toList ++ body.quoted
  | .numeral e => e.message

namespace Matcher

/-- The template of a rule for a search with the given wildcards; a rule that only marks
needs none. -/
def templateOf (rule : Rule) (order : List Wildcard) : Except NumeralTooLong Template :=
  match rule.action with
  | .mark => .ok []
  | .replace replacement _ => Template.ofReplacement replacement order rule.scope

/-- The matcher of a rule. -/
def ofRule (rule : Rule) : Except RuleFault Matcher :=
  match Pattern.ofSearch? rule.body with
  | none => .error (.nothingToFind rule.body)
  | some pattern =>
    match templateOf rule pattern.wildcards with
    | .error e => .error (.numeral e)
    | .ok template => .ok ⟨rule, pattern, template⟩

/-- What a matcher puts in the place of what it found. -/
def render (matcher : Matcher) (found : Text) (groups : Groups) : Text :=
  if matcher.rule.replaces then matcher.template.render found groups else found

end Matcher

/-- The rules of a list that can be applied, and those that were skipped. -/
structure RuleSet where
  /-- The matchers, in the order of the rules. -/
  matchers : List Matcher
  /-- The rules that have nothing to search for, in order. -/
  skipped : List Rule
  deriving DecidableEq, Repr

namespace RuleSet

/-- The rule set of a list of rules; a numeral that is too long spoils it. -/
def ofRules : List Rule → Except NumeralTooLong RuleSet
  | [] => .ok ⟨[], []⟩
  | rule :: rules =>
    match Matcher.ofRule rule with
    | .error (.numeral e) => .error e
    | .error (.nothingToFind _) =>
      (ofRules rules).map fun set => ⟨set.matchers, rule :: set.skipped⟩
    | .ok matcher =>
      (ofRules rules).map fun set => ⟨matcher :: set.matchers, set.skipped⟩

/-- The rule set of a rule list. -/
def ofList (list : Text) : Except NumeralTooLong RuleSet :=
  ofRules (Rule.ofList list)

/-- The rules that are skipped before a numeral that is too long is met. -/
def skippedIn : List Rule → List Rule
  | [] => []
  | rule :: rules =>
    match Matcher.ofRule rule with
    | .error (.numeral _) => []
    | .error (.nothingToFind _) => rule :: skippedIn rules
    | .ok _ => skippedIn rules

end RuleSet

/-- What is said of a rule that was skipped. -/
def Rule.warning (rule : Rule) : Text :=
  (RuleFault.nothingToFind rule.body).message

end RuleSweep
