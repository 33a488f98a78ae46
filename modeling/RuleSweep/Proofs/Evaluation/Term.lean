/-
# Evaluating a search term

A search term is a search half without any mark or wildcard (`Text.IsTerm`).  Evaluating it
marks its occurrences from left to right, each looked for from the end of the one before,
and keeps everything else (`MarksEvery`).

The one character of which this does not hold is the shield: a term that holds it marks the
occurrences of another text, in which `[or]` stands in its place.  `evaluate_term` says both,
and `not_marksEvery_shield` shows the difference.
-/
import RuleSweep.Proofs.Pattern.Literal
import RuleSweep.Proofs.Rule.Row
import RuleSweep.Proofs.Sweep.Junction

namespace RuleSweep

/-- A search half without marks and wildcards. -/
structure Text.IsTerm (t : Text) : Prop extends t.IsSearch where
  /-- It does not ask for whole lines. -/
  wholeLine : ¬ lineMark <+: t
  /-- It is a single alternative. -/
  alternative : ¬ Pattern.alternativeMark <:+: t
  /-- It holds no wildcard. -/
  wildcard : ∀ w : Wildcard, ¬ w.marker <:+: t

/-- Segments that mark the occurrences of a term in a source, from left to right and without
overlap, and keep everything else. -/
inductive MarksEvery (term : Text) : Text → List Segment → Prop
  /-- Where the term does not occur, all is kept. -/
  | rest {source : Text} (absent : Text.cutAt? term source = none) :
      MarksEvery term source (Segment.keeping source)
  /-- The first occurrence is marked, what is in front of it is kept, and what is behind it
  is looked through from there. -/
  | next {source before after : Text} {later : List Segment}
      (first : Text.cutAt? term source = some (before, after))
      (others : MarksEvery term after later) :
      MarksEvery term source (Segment.keeping before ++ ⟨.added, term⟩ :: later)

/-- What is marked is the term. -/
theorem MarksEvery.eq_of_added {term source : Text} {segments : List Segment}
    (h : MarksEvery term source segments) {segment : Segment} (hmem : segment ∈ segments)
    (hadded : segment.kind = .added) : segment = ⟨.added, term⟩ := by
  have hkept : ∀ run : Text, segment ∉ Segment.keeping run := by
    intro run hrun
    by_cases hne : run = []
    · rw [hne, Segment.keeping_nil] at hrun
      exact absurd hrun List.not_mem_nil
    · rw [Segment.keeping_of_ne_nil hne, List.mem_singleton] at hrun
      exact absurd (hrun ▸ hadded) (by simp)
  induction h with
  | rest _ => exact absurd hmem (hkept _)
  | next _ _ ih =>
    obtain hmem | hmem := List.mem_append.mp hmem
    · exact absurd hmem (hkept _)
    · obtain rfl | hmem := List.mem_cons.mp hmem
      · rfl
      · exact ih hmem

section Walk

variable {matcher : Matcher} {t : Text}

/-- What the plain walk meets with a single rule that searches for a text: the text, where
it stands. -/
theorem eventAt?_literal (hscope : matcher.rule.scope = .text)
    (hpattern : matcher.pattern = .literal t) (behind ahead : Text) :
    eventAt? [matcher] behind ahead
      = if t <+: ahead then some (.found matcher ⟨behind.length, t, []⟩) else none := by
  have hclaim : claimAt? [matcher] behind ahead = none := by
    simp [claimAt?, lineMatchers, hscope]
  rw [eventAt?, hclaim]
  by_cases ht : t <+: ahead
  · have hhits : hitsAt [matcher] ahead = [(matcher, ⟨t.length, []⟩)] := by
      simp [hitsAt, textMatchers, hscope, hpattern, Pattern.hit?_literal, ht]
    have htake : ahead.take t.length = t := (List.prefix_iff_eq_take.mp ht).symm
    rw [hhits, if_pos ht]
    simp [Hit.toCandidate, htake]
  · have hhits : hitsAt [matcher] ahead = [] := by
      simp [hitsAt, textMatchers, hscope, hpattern, Pattern.hit?_literal, ht]
    rw [hhits, if_neg ht]
    rfl

/-- **The plain walk with a single rule that marks a text marks its occurrences.** -/
theorem marksEvery_segmentsFrom (hscope : matcher.rule.scope = .text)
    (hmarks : matcher.rule.replaces = false) (hpattern : matcher.pattern = .literal t)
    (hne : t ≠ []) (behind ahead : Text) :
    MarksEvery t ahead (segmentsFrom [matcher] 0 [] behind ahead) := by
  have hevent := eventAt?_literal hscope hpattern
  -- the induction is on the length, since an occurrence is passed in one go
  induction hlength : ahead.length using Nat.strong_induction_on generalizing behind ahead with
  | _ n ih =>
    cases hcut : Text.cutAt? t ahead with
    | none =>
      have habsent := Text.cutAt?_eq_none_iff.mp hcut
      have hquiet : plainFrom [matcher] 0 [] behind (ahead ++ [])
          = Stretch.keeping ([] ++ ahead) := by
        rw [plainFrom_quiet, plainFrom]
        intro before after heq _
        rw [List.append_nil, hevent, if_neg]
        intro hprefix
        exact habsent (heq ▸ hprefix.isInfix.trans (List.suffix_append before after).isInfix)
      rw [List.append_nil, List.nil_append] at hquiet
      rw [segmentsFrom, hquiet]
      exact .rest hcut
    | some parts =>
      obtain ⟨before, after⟩ := parts
      have happend := Text.append_of_cutAt? hcut
      have hquiet : ∀ earlier later, before = earlier ++ later → later ≠ [] →
          eventAt? [matcher] (behind ++ earlier) (later ++ (t ++ after)) = none := by
        intro earlier later heq hlater
        have hplace : ahead = earlier ++ (later ++ (t ++ after)) := by
          rw [← happend, heq, List.append_assoc, List.append_assoc]
        have hbefore : earlier.length < before.length := by
          have hpos := List.length_pos_of_ne_nil hlater
          rw [heq, List.length_append]
          omega
        rw [hevent, if_neg (Text.not_isPrefix_of_cutAt? hcut hplace hbefore)]
      have hfound : eventAt? [matcher] (behind ++ before) (t ++ after)
          = some (.found matcher ⟨(behind ++ before).length, t, []⟩) := by
        rw [hevent, if_pos (List.prefix_append t after)]
      have hshorter : after.length < n := by
        have hpos := List.length_pos_of_ne_nil hne
        rw [← hlength, ← happend, List.length_append, List.length_append]
        omega
      have hsegments : segmentsFrom [matcher] 0 [] behind ahead
          = Segment.keeping before ++ ⟨.added, t⟩
            :: segmentsFrom [matcher] 0 [] (behind ++ before ++ t) after := by
        rw [← happend, List.append_assoc, segmentsFrom, plainFrom_quiet hquiet,
          plainFrom_event hfound rfl hne, List.nil_append, List.map_append, List.map_cons,
          ← Segment.keeping, segmentsFrom]
        simp [Stretch.segment, Matcher.kind, Matcher.render, hmarks]
      rw [hsegments]
      exact .next hcut (ih after.length hshorter _ _ rfl)

end Walk

/-! ## Evaluations -/

/-- As a rule list, a search term holds one rule, which marks its unshielded form. -/
theorem RuleSet.ofList_of_isTerm {term : Text} (h : term.IsTerm) :
    RuleSet.ofList term
      = .ok ⟨[⟨.marking 1 term, .literal (Pattern.unshielded term), []⟩], []⟩ := by
  have hpattern := Pattern.ofSearch?_eq_literal h.ne_nil h.alternative h.wildcard
  have hmatcher : Matcher.ofRule (.marking 1 term)
      = .ok ⟨.marking 1 term, .literal (Pattern.unshielded term), []⟩ := by
    rw [Matcher.ofRule, Rule.body_marking h.wholeLine, hpattern]
    rfl
  rw [ofList, Rule.ofList_of_isSearch h.toIsSearch h.wholeLine, ofRules, hmatcher]
  rfl

/-- **A search term marks its occurrences.**  Every source can be evaluated, and what is
marked are the occurrences of the unshielded term, from left to right; if the term holds no
shield, these are the occurrences of the term itself. -/
theorem evaluate_term {term : Text} (h : term.IsTerm) (source : Text) :
    ∃ result, evaluate source term = .ok result ∧
      MarksEvery (Pattern.unshielded term) source result.segments ∧
      (Pattern.shield ∉ term → MarksEvery term source result.segments) := by
  have hset := RuleSet.ofList_of_isTerm h
  obtain ⟨result, hresult, hsegments, -⟩ := evaluate_of_ofList hset source
  have hmarks : MarksEvery (Pattern.unshielded term) source
      (segmentsFrom [⟨.marking 1 term, .literal (Pattern.unshielded term), []⟩] 0 [] [] source) :=
    marksEvery_segmentsFrom (Rule.scope_marking h.wholeLine 1) rfl rfl
      (Pattern.unshielded_ne_nil h.ne_nil) [] source
  rw [← sweep_eq_segmentsFrom (RuleSet.solid_of_ofList hset) (RuleSet.withinLine_of_ofList hset),
    ← hsegments] at hmarks
  refine ⟨result, hresult, hmarks, fun hshield => ?_⟩
  rwa [Pattern.unshielded_of_notMem hshield] at hmarks

/-- An occurrence that overlaps the one before does not count, and a dot is only a dot. -/
theorem evaluate_term_overlap :
    Text.IsTerm "a.a".toList ∧
    ∃ result, evaluate "a.a.a b aba.a".toList "a.a".toList = .ok result ∧
      MarksEvery "a.a".toList "a.a.a b aba.a".toList result.segments ∧
      result.segments = [⟨.added, "a.a".toList⟩, ⟨.kept, ".a b ab".toList⟩,
        ⟨.added, "a.a".toList⟩] := by
  have hterm : Text.IsTerm "a.a".toList :=
    { ne_nil := by decide
      trim := by decide
      newline := by decide
      separator := by decide
      wholeLine := by decide
      alternative := by decide
      wildcard := fun w => by cases w <;> decide }
  have hsegments : (evaluate "a.a.a b aba.a".toList "a.a".toList).map Result.segments
      = .ok [⟨.added, "a.a".toList⟩, ⟨.kept, ".a b ab".toList⟩, ⟨.added, "a.a".toList⟩] := by
    decide
  obtain ⟨result, hresult, -, hmarks⟩ := evaluate_term hterm "a.a.a b aba.a".toList
  rw [hresult, Except.map, Except.ok.injEq] at hsegments
  exact ⟨hterm, result, hresult, hmarks (by decide), hsegments⟩

/-- The shield is a term too, but it marks `[or]` and not itself. -/
theorem not_marksEvery_shield :
    Text.IsTerm [Pattern.shield] ∧
    ∃ result, evaluate (Pattern.shield :: "[or]".toList) [Pattern.shield] = .ok result ∧
      result.segments = [⟨.kept, [Pattern.shield]⟩, ⟨.added, "[or]".toList⟩] ∧
      ¬ MarksEvery [Pattern.shield] (Pattern.shield :: "[or]".toList) result.segments := by
  have hterm : Text.IsTerm [Pattern.shield] :=
    { ne_nil := by decide
      trim := by decide
      newline := by decide
      separator := by decide
      wholeLine := by decide
      alternative := by decide
      wildcard := fun w => by cases w <;> decide }
  refine ⟨hterm, ⟨[⟨.kept, [Pattern.shield]⟩, ⟨.added, "[or]".toList⟩], 1, 0, []⟩, by decide, rfl,
    fun hmarks => ?_⟩
  have hmem : ⟨.added, "[or]".toList⟩
      ∈ [(⟨.kept, [Pattern.shield]⟩ : Segment), ⟨.added, "[or]".toList⟩] := by decide
  exact absurd (hmarks.eq_of_added hmem rfl) (by decide)

end RuleSweep
