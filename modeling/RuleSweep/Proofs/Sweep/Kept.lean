/-
# What is kept holds nothing to be found

No pattern of a rule list fits anywhere inside a segment that is kept:
`find?_eq_none_of_kept`.  At a place of a kept stretch no rule for text fits, or the sweep
would have found it there or in front of it.  Nor does a rule for lines: a stretch that is
not claimed can begin in the middle of a line, so the sweep carries along that the line it
is in is not claimed (`Clear`), and a rule for lines that fits at some place of a line would
have claimed it.  Both speak of places in the source; a pattern that fits inside the kept
text alone fits at the same place of the source as well (`Pattern.hit?_eq_none_of_append`).
-/
import RuleSweep.Proofs.Sweep.Junction

namespace RuleSweep

/-! ## The line around a position -/

namespace Text

/-- What lies behind of the line that a position is in: the text behind its last newline. -/
def lineBehind (behind : Text) : Text :=
  (behind.reverse.takeWhile (· ≠ '\n')).reverse

/-- The line that a position is in. -/
def lineAround (behind ahead : Text) : Text :=
  behind.lineBehind ++ ahead.firstLine

/-- Where a line begins, nothing of it lies behind. -/
theorem lineBehind_of_endsLine {behind : Text} (h : behind.endsLine = true) :
    behind.lineBehind = [] := by
  cases behind using List.reverseRecOn with
  | nil => rfl
  | append_singleton behind c =>
    rw [endsLine_append_singleton, decide_eq_true_eq] at h
    simp [lineBehind, h]

/-- Where a line begins, it is the first line ahead. -/
theorem lineAround_of_endsLine {behind : Text} (h : behind.endsLine = true) (ahead : Text) :
    lineAround behind ahead = ahead.firstLine := by
  rw [lineAround, lineBehind_of_endsLine h, List.nil_append]

/-- A position and the next one are in the same line, unless a newline lies between
them. -/
theorem lineAround_append_singleton {c : Char} (hc : c ≠ '\n') (behind ahead : Text) :
    lineAround (behind ++ [c]) ahead = lineAround behind (c :: ahead) := by
  have hbehind : lineBehind (behind ++ [c]) = lineBehind behind ++ [c] := by
    simp [lineBehind, hc]
  rw [lineAround, lineAround, hbehind, firstLine, if_neg hc, List.append_assoc,
    List.singleton_append]

end Text

/-- A pattern that stays within lines fits in the first line as it fits in the text. -/
theorem Pattern.hit?_firstLine {pattern : Pattern} (hline : pattern.WithinLine) (t : Text) :
    pattern.hit? t.firstLine = pattern.hit? t := by
  obtain ⟨rest, hrest⟩ := Text.firstLine_prefix t
  by_cases hnil : rest = []
  · rw [hnil, List.append_nil] at hrest
    rw [hrest]
  · have hlast := Text.getLast?_of_firstLine (by rw [hrest]) hnil
    have happend := hit?_append_of_mem hline (List.mem_of_getLast? hlast) rest
    rw [hrest] at happend
    exact happend.symm

/-! ## Lines that are not claimed -/

/-- The line around a position is not claimed. -/
def Unclaimed (matchers : List Matcher) (behind ahead : Text) : Prop :=
  ∀ matcher ∈ lineMatchers matchers, matcher.pattern.find? (Text.lineAround behind ahead) = none

/-- A position in the middle of a line is clear if the line is not claimed.  A position
where a line begins is clear, and so is the end of the source. -/
def Clear (matchers : List Matcher) (behind ahead : Text) : Prop :=
  behind.endsLine = false → ahead ≠ [] → Unclaimed matchers behind ahead

section Clear

variable {matchers : List Matcher} {behind ahead free fenced : Text}

/-- In a line that is not claimed no rule for lines fits anywhere. -/
theorem Unclaimed.hit?_eq_none (h : Unclaimed matchers behind ahead) {matcher : Matcher}
    (hmatcher : matcher ∈ lineMatchers matchers) (hline : matcher.pattern.WithinLine) :
    matcher.pattern.hit? ahead = none := by
  have hhere := Pattern.find?_eq_none_iff.mp (h matcher hmatcher) behind.lineBehind.length
  rwa [Text.lineAround, List.drop_left, Pattern.hit?_firstLine hline] at hhere

/-- Behind a character of a line that is not claimed the position is clear. -/
theorem Unclaimed.clear {c : Char} (h : Unclaimed matchers behind (c :: ahead)) :
    Clear matchers (behind ++ [c]) ahead := by
  intro hends _
  rw [Text.endsLine_append_singleton, decide_eq_false_iff_not] at hends
  rw [Unclaimed, Text.lineAround_append_singleton hends]
  exact h

/-- Where a line begins in a free stretch, it is not claimed. -/
theorem Free.unclaimed_of_endsLine {gap rest : Text} (hfree : Free matchers behind free fenced)
    (hsplit : gap ++ rest = free ++ fenced) (hgap : gap.length < free.length)
    (hends : (behind ++ gap).endsLine = true) : Unclaimed matchers (behind ++ gap) rest := by
  rw [Unclaimed, Text.lineAround_of_endsLine hends]
  exact Claim.ofLine?_eq_none_iff.mp (hfree.ofLine?_eq_none hsplit hgap hends)

/-- A free stretch that begins at a clear position lies in lines that are not claimed. -/
theorem Free.unclaimed_append {gap rest : Text} (hfree : Free matchers behind free fenced)
    (hclear : Clear matchers behind (free ++ fenced)) (hsplit : gap ++ rest = free ++ fenced)
    (hgap : gap.length < free.length) : Unclaimed matchers (behind ++ gap) rest := by
  -- from one position to the next the line stays the same, until a new line begins
  induction gap using List.reverseRecOn generalizing rest with
  | nil =>
    cases hends : behind.endsLine with
    | true => exact hfree.unclaimed_of_endsLine hsplit hgap (by rwa [List.append_nil])
    | false =>
      rw [List.nil_append] at hsplit
      rw [List.append_nil, hsplit]
      exact hclear hends (List.append_ne_nil_of_left_ne_nil hfree.ne_nil fenced)
  | append_singleton gap c ih =>
    rw [List.append_assoc, List.singleton_append] at hsplit
    rw [List.length_append, List.length_singleton] at hgap
    have hnext := (ih hsplit (by omega)).clear
    rw [List.append_assoc] at hnext
    cases hends : (behind ++ (gap ++ [c])).endsLine with
    | true =>
      refine hfree.unclaimed_of_endsLine ?_ ?_ hends
      · rw [List.append_assoc, List.singleton_append, hsplit]
      · rw [List.length_append, List.length_singleton]
        exact hgap
    | false =>
      refine hnext hends ?_
      rintro rfl
      have hlength := congrArg List.length hsplit
      simp only [List.length_append, List.length_singleton] at hlength
      omega

/-- A sweep that moves on from a clear position, but not past a free stretch, comes to a
clear position. -/
theorem Free.clear_append {passed rest : Text} (hfree : Free matchers behind free fenced)
    (hclear : Clear matchers behind (free ++ fenced)) (hsplit : passed ++ rest = free ++ fenced)
    (hle : passed.length ≤ free.length) (hpassed : passed ≠ []) :
    Clear matchers (behind ++ passed) rest := by
  cases passed using List.reverseRecOn with
  | nil => exact absurd rfl hpassed
  | append_singleton passed c =>
    rw [List.append_assoc, List.singleton_append] at hsplit
    rw [List.length_append, List.length_singleton] at hle
    rw [← List.append_assoc]
    exact (hfree.unclaimed_append hclear hsplit (by omega)).clear

/-- **A stride goes from a clear position to a clear position.** -/
theorem Stride.clear {passed rest : Text} {made : List Stretch}
    (h : Stride matchers behind passed rest made) (hpassed : passed ≠ [])
    (hclear : Clear matchers behind (passed ++ rest)) :
    Clear matchers (behind ++ passed) rest := by
  cases h with
  | claimed _ line _ =>
    -- a claimed line is passed up to its end
    intro hends hrest
    rw [Text.endsLine, List.getLast?_append_of_ne_nil behind hpassed,
      Text.getLast?_of_firstLine line hrest] at hends
    exact absurd hends (by simp)
  | kept isFree _ => exact isFree.clear_append hclear rfl (Nat.le_refl _) hpassed
  | @found gap span _ free fenced matcher groups isFree ahead best =>
    rw [ahead] at hclear
    exact isFree.clear_append hclear ahead (length_le_of_best? best) hpassed

end Clear

/-! ## Kept stretches -/

section Kept

variable {matchers : List Matcher} {behind : Text}

/-- Where there is no event, no rule for text fits. -/
theorem hit?_eq_none_of_eventAt? {t : Text} {matcher : Matcher}
    (h : eventAt? matchers behind t = none) (hmatcher : matcher ∈ textMatchers matchers) :
    matcher.pattern.hit? t = none := by
  rw [eventAt?] at h
  cases hclaim : claimAt? matchers behind t with
  | some claim => simp [hclaim] at h
  | none =>
    rw [hclaim] at h
    simp only [Option.map_eq_none_iff, List.argmax_eq_none] at h
    cases hhit : matcher.pattern.hit? t with
    | none => rfl
    | some hit =>
      have hmem : (matcher, hit) ∈ hitsAt matchers t := mem_hitsAt.mpr ⟨hmatcher, hhit⟩
      rw [h] at hmem
      exact absurd hmem List.not_mem_nil

/-- In the text in front of all finds of a free stretch nothing is to be found. -/
theorem Free.find?_eq_none {free fenced gap rest : Text}
    (hsolid : ∀ matcher ∈ matchers, matcher.pattern.Solid)
    (hline : ∀ matcher ∈ matchers, matcher.pattern.WithinLine)
    (hfree : Free matchers behind free fenced) (hclear : Clear matchers behind (free ++ fenced))
    (hsplit : gap ++ rest = free ++ fenced) (hgap : gap.length ≤ free.length)
    (hbefore : ∀ entry ∈ findsBefore matchers behind (free ++ fenced) (behind ++ free).length,
      (behind ++ gap).length ≤ entry.2.start) :
    ∀ matcher ∈ matchers, matcher.pattern.find? gap = none := by
  intro matcher hmatcher
  refine Pattern.find?_eq_none (hsolid matcher hmatcher) ?_
  intro before after heq hafter
  suffices hlonger : matcher.pattern.hit? (after ++ rest) = none from
    Pattern.hit?_eq_none_of_append hlonger
  cases hscope : matcher.rule.scope with
  | text =>
    have hevent := hfree.eventAt?_eq_none hline hsplit hgap hbefore before after heq hafter
    exact hit?_eq_none_of_eventAt? hevent (List.mem_filter.mpr ⟨hmatcher, by simp [hscope]⟩)
  | line =>
    have hpos := List.length_pos_of_ne_nil hafter
    have hlength : before.length < free.length := by
      rw [heq, List.length_append] at hgap
      omega
    have hunclaimed : Unclaimed matchers (behind ++ before) (after ++ rest) :=
      hfree.unclaimed_append hclear (by rw [← hsplit, heq, List.append_assoc]) hlength
    exact hunclaimed.hit?_eq_none (List.mem_filter.mpr ⟨hmatcher, by simp [hscope]⟩)
      (hline matcher hmatcher)

/-- What a stride keeps holds nothing to be found. -/
theorem Stride.find?_eq_none {passed rest : Text} {made : List Stretch}
    (hsolid : ∀ matcher ∈ matchers, matcher.pattern.Solid)
    (hline : ∀ matcher ∈ matchers, matcher.pattern.WithinLine)
    (h : Stride matchers behind passed rest made) (hclear : Clear matchers behind (passed ++ rest))
    {text : Text} (hkept : .kept text ∈ made) :
    ∀ matcher ∈ matchers, matcher.pattern.find? text = none := by
  cases h with
  | claimed _ _ _ => simp at hkept
  | kept isFree nothing =>
    rw [List.mem_singleton, Stretch.kept.injEq] at hkept
    subst hkept
    refine isFree.find?_eq_none hsolid hline hclear rfl (Nat.le_refl _) ?_
    rw [nothing]
    exact fun entry hentry => absurd hentry List.not_mem_nil
  | @found gap span _ free fenced matcher groups isFree ahead best =>
    have hlt := (mem_findsBefore (Candidate.mem_of_best? best)).2.1
    have hgap : gap.length ≤ free.length := by
      simp only [List.length_append] at hlt
      omega
    have htext : text = gap := by
      rw [Stretch.keeping] at hkept
      split at hkept
      · simp at hkept
      · simpa using hkept
    subst htext
    rw [ahead] at hclear
    have hsplit : text ++ (span ++ rest) = free ++ fenced := by rw [← ahead, List.append_assoc]
    exact isFree.find?_eq_none hsolid hline hclear hsplit hgap (Candidate.start_le_of_best? best)

/-- **What a sweep keeps holds nothing to be found**, from any clear position on. -/
theorem Strides.find?_eq_none {ahead : Text} {stretches : List Stretch}
    (hsolid : ∀ matcher ∈ matchers, matcher.pattern.Solid)
    (hline : ∀ matcher ∈ matchers, matcher.pattern.WithinLine)
    (h : Strides matchers behind ahead stretches) (hclear : Clear matchers behind ahead)
    {text : Text} (hkept : .kept text ∈ stretches) :
    ∀ matcher ∈ matchers, matcher.pattern.find? text = none := by
  induction h with
  | done behind => exact absurd hkept List.not_mem_nil
  | stride hpassed first _ ih =>
    rcases List.mem_append.mp hkept with hmade | hlater
    · exact first.find?_eq_none hsolid hline hclear hmade
    · exact ih (first.clear hpassed hclear) hlater

end Kept

/-- Only a stretch that is kept makes a segment that is kept. -/
theorem Stretch.eq_kept {stretch : Stretch} (h : stretch.segment.kind = .kept) :
    stretch = .kept stretch.segment.text := by
  cases stretch with
  | kept text => rfl
  | claimed claim =>
    rw [segment, Claim.kind_segment] at h
    exact absurd h claim.matcher.kind_ne_kept
  | found matcher candidate => exact absurd h matcher.kind_ne_kept

/-- **Nothing that a rule searches for is left in what is kept.**  A rule list that gives a
rule set can be evaluated on every source, and then the pattern of no rule, be it a rule for
text or a rule for lines, is found anywhere inside a segment that is kept. -/
theorem find?_eq_none_of_kept {list : Text} {set : RuleSet} (h : RuleSet.ofList list = .ok set)
    (source : Text) :
    ∃ result, evaluate source list = .ok result ∧
      ∀ segment ∈ result.segments, segment.kind = .kept →
        ∀ matcher ∈ set.matchers, matcher.pattern.find? segment.text = none := by
  have hsolid := RuleSet.solid_of_ofList h
  have hline := RuleSet.withinLine_of_ofList h
  obtain ⟨result, hresult, hsegments, -⟩ := evaluate_of_ofList h source
  refine ⟨result, hresult, ?_⟩
  intro segment hsegment hkind
  rw [hsegments, sweep_eq_map_segment, List.mem_map] at hsegment
  obtain ⟨stretch, hstretch, rfl⟩ := hsegment
  rw [Stretch.eq_kept hkind] at hstretch
  have hclear : Clear set.matchers [] source := fun hends _ => absurd hends (by decide)
  exact (strides_cut hsolid source).find?_eq_none hsolid hline hclear hstretch

/-- A kept segment can begin in the middle of a line and can hold whole lines: neither the
rule for lines nor those for text find anything in it. -/
theorem find?_eq_none_of_kept_gaps :
    ∃ set result, RuleSet.ofList "[line]x\n[num]///#\na[or]ab".toList = .ok set ∧
      evaluate "7b\nc\nd 12\nx".toList "[line]x\n[num]///#\na[or]ab".toList = .ok result ∧
      result.segments
        = [⟨.replaced, "#".toList⟩, ⟨.kept, "b\nc\nd ".toList⟩, ⟨.replaced, "#".toList⟩,
            ⟨.kept, "\n".toList⟩, ⟨.added, "x".toList⟩] ∧
      ∀ matcher ∈ set.matchers, matcher.pattern.find? "b\nc\nd ".toList = none := by
  have hsegments :
      (evaluate "7b\nc\nd 12\nx".toList "[line]x\n[num]///#\na[or]ab".toList).map Result.segments
        = .ok [⟨.replaced, "#".toList⟩, ⟨.kept, "b\nc\nd ".toList⟩, ⟨.replaced, "#".toList⟩,
            ⟨.kept, "\n".toList⟩, ⟨.added, "x".toList⟩] := by decide
  cases hset : RuleSet.ofList "[line]x\n[num]///#\na[or]ab".toList with
  | error e =>
    have hok : (RuleSet.ofList "[line]x\n[num]///#\na[or]ab".toList).isOk = true := by decide
    rw [hset] at hok
    exact absurd hok Bool.false_ne_true
  | ok set =>
    obtain ⟨result, hresult, hkept⟩ := find?_eq_none_of_kept hset "7b\nc\nd 12\nx".toList
    rw [hresult, Except.map, Except.ok.injEq] at hsegments
    refine ⟨set, result, rfl, hresult, hsegments, ?_⟩
    exact hkept ⟨.kept, "b\nc\nd ".toList⟩ (by rw [hsegments]; simp) rfl

end RuleSweep
