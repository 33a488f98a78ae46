/-
# Deleting lines

If the rules of a list that replace anything delete whole lines, an evaluation takes the lines
that they have out of the source, terminators included, and leaves all others alone, whatever
the other rules mark in them.  The lines that are left are still lines of the new text, so a
second evaluation finds nothing to delete: `evaluate_deletions`.
-/
import RuleSweep.Proofs.Sweep.Lines

namespace RuleSweep

/-- A line is deleted: of the rules for lines that find something inside it, the first one
deletes. -/
def isDeleted (matchers : List Matcher) (line : Text) : Bool :=
  (claimant? matchers line).any (·.rule.deletes)

/-- Those of some matchers that replace anything delete whole lines. -/
def OnlyDelete (matchers : List Matcher) : Prop :=
  ∀ matcher ∈ matchers, matcher.rule.replaces = true →
    matcher.rule.scope = .line ∧ matcher.rule.deletes = true

instance (matchers : List Matcher) : Decidable (OnlyDelete matchers) :=
  inferInstanceAs (Decidable (∀ matcher ∈ matchers, matcher.rule.replaces = true →
    matcher.rule.scope = .line ∧ matcher.rule.deletes = true))

/-- The rules for text only mark, if those that replace delete lines. -/
theorem OnlyDelete.marks {matchers : List Matcher} (h : OnlyDelete matchers) :
    ∀ matcher ∈ textMatchers matchers, matcher.rule.replaces = false := by
  intro matcher hmatcher
  obtain ⟨hmem, hscope⟩ := List.mem_filter.mp hmatcher
  rw [decide_eq_true_eq] at hscope
  by_contra hreplaces
  rw [Bool.not_eq_false] at hreplaces
  have hline := (h matcher hmem hreplaces).1
  rw [hscope] at hline
  exact Scope.noConfusion hline

/-! ## A single line -/

section Line

variable {list : Text} {set : RuleSet} {line : Text}

/-- The rule that has a line decides whether it is deleted. -/
theorem isDeleted_of_claimant {matchers : List Matcher} {matcher : Matcher}
    (h : claimant? matchers line = some matcher) :
    isDeleted matchers line = matcher.rule.deletes := by
  rw [isDeleted, h, Option.any_some]

/-- A line that no rule claims is not deleted. -/
theorem isDeleted_of_not_claim {matchers : List Matcher}
    (h : Claim.ofLine? (lineMatchers matchers) ⟨0, line⟩ = none) :
    isDeleted matchers line = false := by
  have hclaimant := Claim.map_matcher_ofLine? (lineMatchers matchers) ⟨0, line⟩
  rw [h, Option.map_none] at hclaimant
  rw [isDeleted, claimant?, ← hclaimant, Option.any_none]

/-- The only segment of a claimed line is empty if the line is deleted, and otherwise the line
itself. -/
theorem sweep_claimed_line (h : RuleSet.ofList list = .ok set) (honly : OnlyDelete set.matchers)
    (hline : line.IsLine) {claim : Claim}
    (hclaim : Claim.ofLine? (lineMatchers set.matchers) ⟨0, line⟩ = some claim) :
    sweep set.matchers line
      = if isDeleted set.matchers line then [⟨.replaced, []⟩] else [⟨.added, line⟩] := by
  have hcut := cut_of_claim (RuleSet.solid_of_ofList h) hline hclaim
  have hkeeps : (Stretch.claimed claim).KeepsLines set.matchers line := by
    apply keepsLines_of_mem_cut h
    rw [hcut]
    exact List.mem_singleton_self _
  obtain ⟨htext, hmatcher, -⟩ := Claim.ofLine?_eq_some hclaim
  rw [sweep_eq_map_segment, hcut, List.map_singleton, Stretch.segment]
  cases hkeeps with
  | marked _ claimant marks segment =>
    rw [htext] at claimant segment
    rw [segment, isDeleted_of_claimant claimant, Rule.deletes_of_marks marks]
    rfl
  | deleted _ claimant deletes segment =>
    rw [htext] at claimant
    rw [segment, isDeleted_of_claimant claimant, deletes]
    rfl
  | replaced _ _ replaces stays _ _ _ =>
    -- a rule that replaces deletes
    have hdeletes := (honly claim.matcher (List.mem_of_mem_filter hmatcher) replaces).2
    rw [stays] at hdeletes
    exact absurd hdeletes Bool.false_ne_true

/-- All stretches of a line that no rule claims stay. -/
theorem stays_of_not_claim (h : RuleSet.ofList list = .ok set) (honly : OnlyDelete set.matchers)
    (hline : line.IsLine)
    (hclaim : Claim.ofLine? (lineMatchers set.matchers) ⟨0, line⟩ = none) :
    ∀ stretch ∈ cut set.matchers line, stretch.Stays := by
  have hsolid := RuleSet.solid_of_ofList h
  intro stretch hstretch
  cases stretch with
  | kept text => exact Stretch.stays_kept text
  | claimed claim =>
    exact absurd hstretch (notMem_cut_of_not_claim hsolid hline hclaim claim)
  | found matcher candidate => exact stays_of_found hsolid honly.marks hstretch

/-- Nothing is left of a line that is deleted, and any other line stays as it is. -/
theorem textOf_sweep_line (h : RuleSet.ofList list = .ok set) (honly : OnlyDelete set.matchers)
    (hline : line.IsLine) :
    Segment.textOf (sweep set.matchers line)
      = if isDeleted set.matchers line then [] else line := by
  cases hclaim : Claim.ofLine? (lineMatchers set.matchers) ⟨0, line⟩ with
  | some claim =>
    rw [sweep_claimed_line h honly hline hclaim]
    split
    · rfl
    · show line ++ [] = line
      exact List.append_nil line
  | none =>
    rw [isDeleted_of_not_claim hclaim, sweep_eq_map_segment,
      textOf_of_stays (stays_of_not_claim h honly hline hclaim),
      flatten_span_cut (RuleSet.solid_of_ofList h)]
    rfl

/-- A line that is deleted counts once, and any other line does not. -/
theorem countP_replaced_sweep_line (h : RuleSet.ofList list = .ok set)
    (honly : OnlyDelete set.matchers) (hline : line.IsLine) :
    (sweep set.matchers line).countP (·.kind = .replaced)
      = if isDeleted set.matchers line then 1 else 0 := by
  cases hclaim : Claim.ofLine? (lineMatchers set.matchers) ⟨0, line⟩ with
  | some claim =>
    rw [sweep_claimed_line h honly hline hclaim]
    split <;> rfl
  | none =>
    rw [isDeleted_of_not_claim hclaim, sweep_eq_map_segment,
      countP_replaced_of_stays (stays_of_not_claim h honly hline hclaim)]
    rfl

end Line

/-! ## Whole sources -/

/-- Parts that are emptied are left out. -/
theorem flatten_map_emptied (parts : List Text) (test : Text → Bool) :
    (parts.map fun part => if test part then [] else part).flatten
      = (parts.filter fun part => !test part).flatten := by
  induction parts with
  | nil => rfl
  | cons part parts ih =>
    rw [List.map_cons, List.flatten_cons, ih]
    cases htest : test part with
    | true => rw [List.filter_cons_of_neg (by simp [htest]), if_pos rfl, List.nil_append]
    | false =>
      rw [List.filter_cons_of_pos (by simp [htest]), if_neg Bool.false_ne_true, List.flatten_cons]

/-- Ones for the parts that pass a test add up to their number. -/
theorem sum_map_counted (parts : List Text) (test : Text → Bool) :
    (parts.map fun part => if test part then 1 else 0).sum = parts.countP test := by
  induction parts with
  | nil => rfl
  | cons part parts ih => rw [List.map_cons, List.sum_cons, ih, List.countP_cons, Nat.add_comm]

section Sources

variable {list : Text} {set : RuleSet}

/-- What is left of a source are its lines that are not deleted. -/
theorem textOf_sweep_deletions (h : RuleSet.ofList list = .ok set)
    (honly : OnlyDelete set.matchers) (source : Text) :
    Segment.textOf (sweep set.matchers source)
      = (source.lines.filter fun line => !isDeleted set.matchers line).flatten := by
  rw [textOf_sweep (RuleSet.solid_of_ofList h) (RuleSet.withinLine_of_ofList h),
    ← flatten_map_emptied]
  congr 1
  apply List.map_congr_left
  intro line hline
  exact textOf_sweep_line h honly ((Text.areLines_lines source).each line hline)

/-- What is replaced in a source are its lines that are deleted. -/
theorem countP_replaced_sweep_deletions (h : RuleSet.ofList list = .ok set)
    (honly : OnlyDelete set.matchers) (source : Text) :
    (sweep set.matchers source).countP (·.kind = .replaced)
      = source.lines.countP (isDeleted set.matchers) := by
  have hlines : source.lines.map (fun line =>
      (sweep set.matchers line).countP (·.kind = .replaced))
      = source.lines.map fun line => if isDeleted set.matchers line then 1 else 0 := by
    apply List.map_congr_left
    intro line hline
    exact countP_replaced_sweep_line h honly ((Text.areLines_lines source).each line hline)
  rw [countP_sweep (RuleSet.solid_of_ofList h) (RuleSet.withinLine_of_ofList h)
    (by decide : SegmentKind.replaced ≠ .kept), hlines, sum_map_counted]

/-- **An evaluation with rules that only delete lines takes out these lines, and a second one
changes nothing.**  What is left are the lines that no rule has, and those that the first rule
which finds something inside them only marks. -/
theorem evaluate_deletions (h : RuleSet.ofList list = .ok set) (honly : OnlyDelete set.matchers)
    (source : Text) :
    ∃ result again, evaluate source list = .ok result ∧
      result.text
        = (source.lines.filter fun line => !isDeleted set.matchers line).flatten ∧
      result.replaceCount = source.lines.countP (isDeleted set.matchers) ∧
      evaluate result.text list = .ok again ∧
      again.text = result.text ∧ again.replaceCount = 0 := by
  obtain ⟨result, hresult, hsegments, -, hreplaced⟩ := evaluate_of_ofList h source
  obtain ⟨again, hagain, hsegments', -, hreplaced'⟩ := evaluate_of_ofList h result.text
  have htext : result.text
      = (source.lines.filter fun line => !isDeleted set.matchers line).flatten := by
    rw [Result.text, hsegments, textOf_sweep_deletions h honly]
  -- the lines that are left are the lines of the new text, and none of them is deleted
  have hlines : result.text.lines
      = source.lines.filter fun line => !isDeleted set.matchers line := by
    rw [htext]
    exact Text.lines_flatten ((Text.areLines_lines source).filter _)
  have hstays : ∀ line ∈ result.text.lines, isDeleted set.matchers line = false := by
    intro line hline
    rw [hlines] at hline
    simpa using List.of_mem_filter hline
  refine ⟨result, again, hresult, htext, ?_, hagain, ?_, ?_⟩
  · rw [hreplaced, countP_replaced_sweep_deletions h honly]
  · have hfilter : (result.text.lines.filter fun line => !isDeleted set.matchers line)
        = result.text.lines := by
      rw [List.filter_eq_self]
      intro line hline
      rw [hstays line hline, Bool.not_false]
    rw [Result.text, hsegments', textOf_sweep_deletions h honly, hfilter, Text.flatten_lines]
  · rw [hreplaced', countP_replaced_sweep_deletions h honly, List.countP_eq_zero]
    intro line hline
    rw [hstays line hline]
    exact Bool.false_ne_true

/-- A line that a rule which marks has first is not deleted; the last line is, although it has
no terminator. -/
theorem evaluate_deletions_marked_first :
    ∃ set result again,
      RuleSet.ofList "[line]keep\n[line]x///[del]\n[num]".toList = .ok set ∧
      OnlyDelete set.matchers ∧
      evaluate "x1\r\nkeep x\n27\nx".toList "[line]keep\n[line]x///[del]\n[num]".toList
        = .ok result ∧
      result.segments
        = [⟨.replaced, []⟩, ⟨.added, "keep x\n".toList⟩, ⟨.added, "27".toList⟩,
            ⟨.kept, "\n".toList⟩, ⟨.replaced, []⟩] ∧
      result.replaceCount = 2 ∧
      evaluate result.text "[line]keep\n[line]x///[del]\n[num]".toList = .ok again ∧
      again.text = "keep x\n27\n".toList ∧ again.replaceCount = 0 := by
  have hsegments :
      (evaluate "x1\r\nkeep x\n27\nx".toList
          "[line]keep\n[line]x///[del]\n[num]".toList).map
            (fun result => (result.segments, result.replaceCount))
        = .ok ([⟨.replaced, []⟩, ⟨.added, "keep x\n".toList⟩, ⟨.added, "27".toList⟩,
            ⟨.kept, "\n".toList⟩, ⟨.replaced, []⟩], 2) := by decide
  have honly :
      (RuleSet.ofList "[line]keep\n[line]x///[del]\n[num]".toList).map
          (fun set => decide (OnlyDelete set.matchers))
        = .ok true := by decide
  cases hset : RuleSet.ofList "[line]keep\n[line]x///[del]\n[num]".toList with
  | error e =>
    rw [hset] at honly
    cases honly
  | ok set =>
    rw [hset, Except.map, Except.ok.injEq, decide_eq_true_eq] at honly
    obtain ⟨result, again, hresult, htext, hreplaced, hagain, hsame, hnone⟩ :=
      evaluate_deletions hset honly "x1\r\nkeep x\n27\nx".toList
    rw [hresult, Except.map, Except.ok.injEq, Prod.mk.injEq] at hsegments
    refine ⟨set, result, again, rfl, honly, hresult, hsegments.1, hsegments.2, hagain, ?_, hnone⟩
    rw [hsame, Result.text, hsegments.1]
    rfl

end Sources

end RuleSweep
