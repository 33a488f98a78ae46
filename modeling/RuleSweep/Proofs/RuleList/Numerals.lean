/-
# Numerals that are too long

A replacement names what a wildcard found by a numeral, and a numeral that is too long is
refused.  Such a numeral does not only keep its own rule from having a matcher: it spoils the
whole rule list.  It is the one thing that does.

* `Template.numerals_signs_rewritten` : which numerals a replacement holds can be read off it
  as it is written.  A text like `$LINE` may make characters of a mark, but no numerals.
* `RuleSet.ofList_eq` : the first numeral of a rule list that is too long spoils it.  If there
  is none, every rule has a matcher or is skipped because it has nothing to search for.
* `evaluate_eq_of_numerals` : the same of an evaluation.
-/
import RuleSweep.Proofs.Rule.Row
import RuleSweep.Proofs.Sweep.Junction
import RuleSweep.Proofs.Template.Plain

namespace RuleSweep

/-! ## The numerals of a replacement -/

namespace Template

/-- The numerals of a rewritten replacement are those of the plain reading. -/
theorem numerals_signs_rewritten (order : List Wildcard) (scope : Scope) (index : Nat)
    (t : Text) :
    (signs (rewritten order scope index t)).flatMap Sign.numerals
      = (plainSigns order scope index t).flatMap Sign.numerals :=
  flatMap_signs_rewritten fun n rest _ =>
    flatMap_signs_dollars rfl (fun _ _ => rfl) (rewritten order scope n rest)

/-- **The template of a replacement in closed form.**  The first numeral of the plain reading
that is too long is refused; if there is none, the tokens of the rewritten replacement make up
the template. -/
theorem ofReplacement_eq_match (replacement : Text) (order : List Wildcard) (scope : Scope) :
    ofReplacement replacement order scope
      = match ((plainSigns order scope 0 replacement).flatMap Sign.numerals).find?
            Text.isOverlong with
        | some digits => .error ⟨digits.length⟩
        | none => .ok (((signs (rewritten order scope 0 replacement)).map Sign.token).foldr
            consAtom []) := by
  rw [ofReplacement_eq, ofText, ← numerals_signs_rewritten]
  exact ofSigns_eq (signs (rewritten order scope 0 replacement))

end Template

/-! ## The numerals of a rule list -/

namespace Rule

/-- The numerals in the replacement of a rule.  The replacement of a rule that has nothing to
search for is never read. -/
def numerals (rule : Rule) : List Text :=
  match Pattern.ofSearch? rule.body, rule.action with
  | some pattern, .replace replacement _ =>
    (Template.plainSigns pattern.wildcards rule.scope 0 replacement).flatMap
      Template.Sign.numerals
  | _, _ => []

/-- The first numeral of a rule that is too long keeps it from having a matcher. -/
theorem fault?_eq (rule : Rule) :
    rule.fault? = (rule.numerals.find? Text.isOverlong).map fun digits => ⟨digits.length⟩ := by
  rw [fault?, numerals, Matcher.ofRule]
  cases Pattern.ofSearch? rule.body with
  | none => rfl
  | some pattern =>
    cases haction : rule.action with
    | mark =>
      simp only [Matcher.templateOf, haction]
      rfl
    | replace replacement deletes =>
      simp only [Matcher.templateOf, haction, Template.ofReplacement_eq_match]
      cases ((Template.plainSigns pattern.wildcards rule.scope 0 replacement).flatMap
        Template.Sign.numerals).find? Text.isOverlong <;> rfl

/-- The first numeral of some rules that is too long spoils their rule set. -/
theorem findSome?_fault?_eq (rules : List Rule) :
    rules.findSome? fault?
      = ((rules.flatMap numerals).find? Text.isOverlong).map fun digits => ⟨digits.length⟩ := by
  rw [List.find?_flatMap, List.map_findSome?]
  congr 1
  funext rule
  exact fault?_eq rule

/-- A rule that nothing spoils is the rule of its matcher, or it has nothing to search for. -/
theorem map_rule_ofRule? {rule : Rule} (h : rule.fault? = none) :
    (Matcher.ofRule? rule).map Matcher.rule = if rule.isVoid then none else some rule := by
  rw [fault?] at h
  rw [isVoid, Matcher.ofRule?, Matcher.ofRule]
  rw [Matcher.ofRule] at h
  cases hpattern : Pattern.ofSearch? rule.body with
  | none => rfl
  | some pattern =>
    rw [hpattern] at h
    cases htemplate : Matcher.templateOf rule pattern.wildcards with
    | error e => simp [htemplate] at h
    | ok template => simp [Except.toOption, htemplate]

/-- Of rules that nothing spoils, those that have something to search for have matchers. -/
theorem map_rule_filterMap_ofRule? {rules : List Rule} (h : rules.findSome? fault? = none) :
    (rules.filterMap Matcher.ofRule?).map Matcher.rule = rules.filter fun rule => !rule.isVoid := by
  rw [List.findSome?_eq_none_iff] at h
  rw [List.map_filterMap, ← List.filterMap_eq_filter]
  refine List.filterMap_congr fun rule hrule => ?_
  rw [map_rule_ofRule? (h rule hrule), Option.guard]
  cases rule.isVoid <;> rfl

end Rule

namespace RuleSet

/-- **The rule set of a rule list in closed form.**  The first numeral that is too long spoils
it; if there is none, it holds the matchers of the rules that have one, and the rules that
have nothing to search for. -/
theorem ofList_eq (list : Text) :
    ofList list
      = match ((Rule.ofList list).flatMap Rule.numerals).find? Text.isOverlong with
        | some digits => .error ⟨digits.length⟩
        | none => .ok ⟨(Rule.ofList list).filterMap Matcher.ofRule?,
            (Rule.ofList list).filter Rule.isVoid⟩ := by
  rw [ofList, ofRules_eq, Rule.findSome?_fault?_eq]
  cases ((Rule.ofList list).flatMap Rule.numerals).find? Text.isOverlong <;> rfl

end RuleSet

/-! ## Evaluations -/

/-- A rule list that is spoilt can only be evaluated on the empty source. -/
theorem evaluate_of_ofList_eq_error {list : Text} {e : NumeralTooLong}
    (h : RuleSet.ofList list = .error e) (source : Text) :
    evaluate source list = if source = [] then .ok .empty else .error (.numeral e) := by
  rw [evaluate, evaluateBy, h]
  simp only [List.isEmpty_iff]

/-- **A rule list can be evaluated unless it holds a numeral that is too long.**  If all its
numerals are short enough, every rule has a matcher or is skipped, and a rule is skipped
exactly if it has nothing to search for; every source is swept by the matchers.  Otherwise the
first numeral that is too long is refused, whatever the other rules are. -/
theorem evaluate_eq_of_numerals (source list : Text) :
    ((∀ digits ∈ (Rule.ofList list).flatMap Rule.numerals, digits.length ≤ maxNumeralDigits) →
      ∃ set result, RuleSet.ofList list = .ok set ∧
        set.matchers.map Matcher.rule = ((Rule.ofList list).filter fun rule => !rule.isVoid) ∧
        set.skipped = (Rule.ofList list).filter Rule.isVoid ∧
        evaluate source list = .ok result ∧ result.segments = sweep set.matchers source ∧
        (source ≠ [] → result.skipped = set.skipped)) ∧
    ∀ digits, ((Rule.ofList list).flatMap Rule.numerals).find? Text.isOverlong = some digits →
      RuleSet.ofList list = .error ⟨digits.length⟩ ∧
      evaluate source list
        = if source = [] then .ok .empty else .error (.numeral ⟨digits.length⟩) := by
  constructor
  · intro hshort
    have hnone : ((Rule.ofList list).flatMap Rule.numerals).find? Text.isOverlong = none := by
      rw [List.find?_eq_none]
      intro digits hdigits
      simpa [Text.isOverlong] using hshort digits hdigits
    have hfault : (Rule.ofList list).findSome? Rule.fault? = none := by
      rw [Rule.findSome?_fault?_eq, hnone]
      rfl
    have hset : RuleSet.ofList list = .ok ⟨(Rule.ofList list).filterMap Matcher.ofRule?,
        (Rule.ofList list).filter Rule.isVoid⟩ := by
      rw [RuleSet.ofList_eq, hnone]
    obtain ⟨result, hresult, hsegments, -⟩ := evaluate_of_ofList hset source
    exact ⟨_, result, hset, Rule.map_rule_filterMap_ofRule? hfault, rfl, hresult, hsegments,
      fun hsource => skipped_of_evaluate hset hsource hresult⟩
  · intro digits hfind
    have hspoilt : RuleSet.ofList list = .error ⟨digits.length⟩ := by
      rw [RuleSet.ofList_eq, hfind]
    exact ⟨hspoilt, evaluate_of_ofList_eq_error hspoilt source⟩

/-! ## A row with one numeral -/

/-- A digit is no blank. -/
theorem isBlank_of_isDigit {d : Char} (h : isDigit d = true) : isBlank d = false := by
  have hrange : 48 ≤ d.toNat ∧ d.toNat ≤ 57 := by
    simpa [isDigit, Char.le_def, UInt32.le_iff_toNat_le] using h
  simp [isBlank, blankRanges]
  omega

namespace Rule

section Capture

variable {digits : Text}

/-- The rule on the row `a///$` with digits behind it. -/
theorem ofList_capture (hdigits : ∀ d ∈ digits, isDigit d = true) :
    ofList ("a///$".toList ++ digits)
      = [⟨"a".toList, .text, .replace ('$' :: digits) false, 1, "a///$".toList ++ digits⟩] := by
  have hdigit : ∀ d ∈ digits, isBlank d = false := fun d hd => isBlank_of_isDigit (hdigits d hd)
  have hrow : ∀ c ∈ "a///$".toList ++ digits, isBlank c = false :=
    List.forall_mem_append.mpr ⟨by simp [isBlank, blankRanges], hdigit⟩
  have hnewline : '\n' ∉ "a///$".toList ++ digits := by
    intro hmem
    exact absurd (hrow '\n' hmem) (by decide)
  have hreplacement : Text.trim ('$' :: digits) = '$' :: digits :=
    Text.trim_of_forall (List.forall_mem_cons.mpr ⟨by decide, hdigit⟩)
  have hhalves : halves ("a///$".toList ++ digits)
      = ("a".toList, .replace ('$' :: digits) false) := by
    have hcut : Text.cutAt? separatorMark ("a///$".toList ++ digits)
        = some ("a".toList, '$' :: digits) := rfl
    have hdelete : '$' :: digits ≠ deleteMark := by
      intro h
      exact absurd (List.cons.inj h).1 (by decide)
    rw [halves, hcut]
    simp only [hreplacement, actionOf, if_neg hdelete]
    rfl
  rw [ofList, Text.rows_of_notMem hnewline, ofRows, ofRow?, Text.trim_of_forall hrow]
  simp only [hhalves]
  rfl

/-- The numeral on such a row. -/
theorem numerals_capture (hdigits : ∀ d ∈ digits, isDigit d = true) (hne : digits ≠ []) :
    numerals ⟨"a".toList, .text, .replace ('$' :: digits) false, 1, "a///$".toList ++ digits⟩
      = [digits] := by
  have htake : digits.takeWhile isDigit = digits := List.takeWhile_eq_self_iff.mpr hdigits
  have hdrop : digits.dropWhile isDigit = [] := List.dropWhile_eq_nil_iff.mpr hdigits
  have hsigns : Template.plainSigns [] .text 0 ('$' :: digits) = [.numeral digits] := by
    rw [Template.plainSigns, if_pos rfl, htake, if_neg hne, hdrop, Template.plainSigns]
  have hpattern : Pattern.ofSearch? "a".toList = some ⟨[[.char 'a']]⟩ := by decide
  simp only [numerals, body, hpattern]
  exact congrArg (List.flatMap Template.Sign.numerals) hsigns

end Capture

end Rule

/-- A row whose numeral is too long spoils a rule list, even if there is no other row. -/
theorem RuleSet.ofList_capture {digits : Text} (hdigits : ∀ d ∈ digits, isDigit d = true)
    (hlong : maxNumeralDigits < digits.length) :
    ofList ("a///$".toList ++ digits) = .error ⟨digits.length⟩ := by
  have hne : digits ≠ [] := List.ne_nil_of_length_pos (Nat.zero_lt_of_lt hlong)
  have hoverlong : Text.isOverlong digits = true := decide_eq_true hlong
  have hfind : ((Rule.ofList ("a///$".toList ++ digits)).flatMap Rule.numerals).find?
      Text.isOverlong = some digits := by
    rw [Rule.ofList_capture hdigits, List.flatMap_singleton, Rule.numerals_capture hdigits hne,
      List.find?_cons_of_pos hoverlong]
  rw [ofList_eq, hfind]

/-- With 4301 digits the numeral is one digit too long, and the whole list is refused. -/
theorem evaluate_long_capture :
    RuleSet.ofList ("a///$".toList ++ List.replicate 4301 '1') = .error ⟨4301⟩ ∧
      evaluate "a".toList ("a///$".toList ++ List.replicate 4301 '1')
        = .error (.numeral ⟨4301⟩) := by
  have hdigits : ∀ d ∈ List.replicate 4301 '1', isDigit d = true := by
    intro d hd
    rw [List.eq_of_mem_replicate hd]
    decide
  have hlength : (List.replicate 4301 '1').length = 4301 := List.length_replicate
  have hspoilt := RuleSet.ofList_capture hdigits (by rw [hlength]; decide)
  rw [hlength] at hspoilt
  refine ⟨hspoilt, ?_⟩
  rw [evaluate_of_ofList_eq_error hspoilt]
  rfl

end RuleSweep
