/-
# Replacing a search term by itself

A rule that replaces a search term by the term itself changes nothing: what the wildcards of the
term have found is put back where it was, between the characters of the term.  The segments are
those of the rule that only marks the term, but they count as replaced: `evaluate_echo`.
-/
import RuleSweep.Proofs.Pattern.Literal
import RuleSweep.Proofs.Rule.Row
import RuleSweep.Proofs.Sweep.Marks
import RuleSweep.Proofs.Sweep.Renaming
import RuleSweep.Proofs.Template.Echo

namespace RuleSweep

/-- A search term of a single alternative that can be its own replacement. -/
structure Text.IsEchoTerm (t : Text) : Prop extends t.IsSearch, t.IsEcho where
  /-- It does not ask for whole lines. -/
  wholeLine : ¬ lineMark <+: t
  /-- It has one alternative. -/
  alternative : ¬ Pattern.alternativeMark <:+: t
  /-- No character of it is taken for a mark between alternatives. -/
  shield : Pattern.shield ∉ t
  /-- As a replacement it does not delete. -/
  delete : t ≠ deleteMark

/-- A segment that counts as replaced if it is marked. -/
def Segment.asReplaced (segment : Segment) : Segment :=
  if segment.kind = .added then ⟨.replaced, segment.text⟩ else segment

/-- Counting as replaced does not change the text. -/
theorem Segment.text_asReplaced (segment : Segment) : segment.asReplaced.text = segment.text := by
  unfold asReplaced
  split <;> rfl

/-! ## Patterns with one alternative -/

namespace Pattern

/-- A search term without a mark between alternatives has one alternative. -/
theorem ofSearch?_eq_singleton {t : Text} (hne : t ≠ []) (hmark : ¬ alternativeMark <:+: t)
    (hshield : shield ∉ t) : ofSearch? t = some ⟨[Piece.ofText t]⟩ := by
  rw [ofSearch?, splitAlternatives_of_not_isInfix hne hmark, unshielded_of_notMem hshield]
  rfl

/-- The hit of a single alternative is a reading of the text that it takes. -/
theorem reads_of_hit? {pieces : List Piece} {span rest : Text} {groups : Groups}
    (h : hit? ⟨[pieces]⟩ (span ++ rest) = some ⟨span.length, groups⟩) :
    ∃ captures : List Text, groups = captures.map some ∧ Piece.Reads pieces captures span := by
  rw [hit?, firstFit?] at h
  cases hfit : Piece.fit? pieces (span ++ rest) with
  | none =>
    rw [hfit] at h
    cases h
  | some fit =>
    rw [hfit, Option.some.injEq, Hit.mk.injEq] at h
    obtain ⟨span', rest', hsplit, hlength, hreads⟩ := Piece.reads_of_fit? hfit
    have hspan : span = span' := List.append_inj_left hsplit (by omega)
    refine ⟨fit.captures, ?_, ?_⟩
    · rw [← h.2]
      exact List.append_nil _
    · rw [hspan]
      exact hreads

end Pattern

/-! ## The two rules -/

section Echo

variable {term : Text} (h : term.IsEchoTerm)

/-- The matcher that marks a search term of one alternative. -/
def Matcher.marker (term : Text) : Matcher :=
  ⟨.marking 1 term, ⟨[Piece.ofText term]⟩, []⟩

/-- A matcher made to replace by a search term what it finds. -/
def Matcher.echoing (term : Text) (template : Template) (matcher : Matcher) : Matcher :=
  ⟨{ matcher.rule with action := .replace term false, row := Rule.rowOf term term },
    matcher.pattern, template⟩

/-- A matcher that replaces finds the same as before. -/
theorem Matcher.searchesLike_echoing (term : Text) (template : Template) (matcher : Matcher) :
    (matcher.echoing term template).SearchesLike matcher where
  pattern := rfl
  scope := rfl

include h

/-- As a rule list, the term marks. -/
theorem RuleSet.ofList_marker : RuleSet.ofList term = .ok ⟨[.marker term], []⟩ := by
  have hpattern := Pattern.ofSearch?_eq_singleton h.ne_nil h.alternative h.shield
  have hmatcher : Matcher.ofRule (.marking 1 term) = .ok (.marker term) := by
    rw [Matcher.ofRule, Rule.body_marking h.wholeLine, hpattern]
    rfl
  rw [ofList, Rule.ofList_of_isSearch h.toIsSearch h.wholeLine, ofRules, hmatcher]
  rfl

/-- As a rule list, the row with the term as both halves replaces. -/
theorem RuleSet.ofList_echoing {template : Template}
    (htemplate : Template.ofReplacement term (Piece.wildcards (Piece.ofText term)) .text
      = .ok template) :
    RuleSet.ofList (Rule.rowOf term term)
      = .ok ⟨[(Matcher.marker term).echoing term template], []⟩ := by
  have hpattern := Pattern.ofSearch?_eq_singleton h.ne_nil h.alternative h.shield
  have haction : Rule.actionOf term = .replace term false := if_neg h.delete
  have hscope : Rule.scopeOf term = .text := Rule.scope_marking h.wholeLine 1
  have hne : (Rule.marking 1 term).body ≠ [] := by
    rw [Rule.body_marking h.wholeLine]
    exact h.ne_nil
  have hrules : Rule.ofList (Rule.rowOf term term)
      = [((Matcher.marker term).echoing term template).rule] := by
    rw [Rule.ofList_rowOf h.toIsSearch hne h.ne_nil h.trim h.newline, haction]
    rfl
  have hbody : ((Matcher.marker term).echoing term template).rule.body = term :=
    Rule.body_of_text hscope
  have horder : Pattern.wildcards ⟨[Piece.ofText term]⟩ = Piece.wildcards (Piece.ofText term) :=
    List.append_nil _
  have htemplateOf : Matcher.templateOf ((Matcher.marker term).echoing term template).rule
      (Piece.wildcards (Piece.ofText term)) = .ok template := by
    rw [← htemplate, ← hscope]
    rfl
  have hmatcher : Matcher.ofRule ((Matcher.marker term).echoing term template).rule
      = .ok ((Matcher.marker term).echoing term template) := by
    rw [Matcher.ofRule, hbody, hpattern]
    simp only
    rw [horder, htemplateOf]
    rfl
  rw [ofList, hrules, ofRules, hmatcher]
  rfl

/-- **The rule that replaces makes of every stretch the segment that the rule which marks makes
of it, but counts it as replaced.** -/
theorem segment_echoing {template : Template}
    (hrender : ∀ captures span, Piece.Reads (Piece.ofText term) captures span →
      ∀ found, template.render found (captures.map some) = span)
    {source : Text} {stretch : Stretch} (hmem : stretch ∈ cut [.marker term] source) :
    (stretch.rename (Matcher.echoing term template)).segment = stretch.segment.asReplaced := by
  have hsolid := RuleSet.solid_of_ofList (RuleSet.ofList_marker h)
  cases stretch with
  | kept text => rfl
  | claimed claim =>
    -- the only rule is a rule for text
    have hmatcher := matcher_mem_of_claimed hsolid hmem
    obtain ⟨hmarker, hscope⟩ := List.mem_filter.mp hmatcher
    rw [List.mem_singleton.mp hmarker, decide_eq_true_eq] at hscope
    have htext : (Matcher.marker term).rule.scope = .text := Rule.scope_marking h.wholeLine 1
    rw [hscope] at htext
    exact absurd htext Scope.noConfusion
  | found matcher candidate =>
    obtain ⟨hmatcher, rest, hhit⟩ := (strides_cut hsolid source).hit?_of_found hmem
    have hmarker : matcher = .marker term :=
      List.mem_singleton.mp (List.mem_of_mem_filter hmatcher)
    subst hmarker
    obtain ⟨captures, hgroups, hreads⟩ := Pattern.reads_of_hit? hhit
    have hback : template.render candidate.text candidate.groups = candidate.text := by
      rw [hgroups]
      exact hrender captures candidate.text hreads candidate.text
    have hmarks : (Matcher.marker term).rule.replaces = false := rfl
    rw [Stretch.segment_found_of_marks hmarks]
    show (⟨.replaced, template.render candidate.text candidate.groups⟩ : Segment)
      = ⟨.replaced, candidate.text⟩
    rw [hback]

/-- **Replacing a search term by itself changes nothing.**  The text stays as it is, and the
segments are those of the rule that only marks the term, with what is marked counted as
replaced. -/
theorem evaluate_echo (source : Text) :
    ∃ marked replaced, evaluate source term = .ok marked ∧
      evaluate source (Rule.rowOf term term) = .ok replaced ∧
      replaced.text = source ∧
      replaced.segments = marked.segments.map Segment.asReplaced := by
  obtain ⟨template, htemplate, hrender⟩ := Template.exists_ofReplacement_of_isEcho h.toIsEcho
  have hmarker := RuleSet.ofList_marker h
  have hechoing := RuleSet.ofList_echoing h htemplate
  have hsolid := RuleSet.solid_of_ofList hmarker
  have hline := RuleSet.withinLine_of_ofList hmarker
  obtain ⟨marked, hmarked, hsegments, -⟩ := evaluate_of_ofList hmarker source
  obtain ⟨replaced, hreplaced, hsegments', -⟩ := evaluate_of_ofList hechoing source
  have hcut : cut [(Matcher.marker term).echoing term template] source
      = (cut [.marker term] source).map (Stretch.rename (Matcher.echoing term template)) :=
    cut_map (Matcher.searchesLike_echoing term template) hsolid hline source
  have hmap : replaced.segments = marked.segments.map Segment.asReplaced := by
    rw [hsegments', hsegments, sweep_eq_map_segment, sweep_eq_map_segment, hcut, List.map_map,
      List.map_map]
    apply List.map_congr_left
    intro stretch hstretch
    exact segment_echoing h hrender hstretch
  refine ⟨marked, replaced, hmarked, hreplaced, ?_, hmap⟩
  have hmarks : ∀ matcher ∈ [Matcher.marker term], matcher.rule.replaces = false := by
    intro matcher hmatcher
    rw [List.mem_singleton.mp hmatcher]
    rfl
  have htext : Segment.textOf (marked.segments.map Segment.asReplaced)
      = Segment.textOf marked.segments := by
    rw [Segment.textOf, List.flatMap_map, Segment.textOf]
    apply List.flatMap_congr
    intro segment _
    exact segment.text_asReplaced
  rw [Result.text, hmap, htext, hsegments, textOf_sweep_of_marks hsolid hmarks]

end Echo

/-- Wildcards side by side and a literal between two of them: every run of digits is put back
where it was, also where the first one could have taken fewer digits. -/
theorem evaluate_echo_wildcards :
    Text.IsEchoTerm "[cjk][num].[num][num]".toList ∧
    ∃ marked replaced,
      evaluate "a章12.345\n章6.7".toList "[cjk][num].[num][num]".toList = .ok marked ∧
      evaluate "a章12.345\n章6.7".toList
        "[cjk][num].[num][num] /// [cjk][num].[num][num]".toList = .ok replaced ∧
      marked.segments = [⟨.kept, "a".toList⟩, ⟨.added, "章12.345".toList⟩,
        ⟨.kept, "\n章6.7".toList⟩] ∧
      replaced.segments = [⟨.kept, "a".toList⟩, ⟨.replaced, "章12.345".toList⟩,
        ⟨.kept, "\n章6.7".toList⟩] ∧
      replaced.text = "a章12.345\n章6.7".toList := by
  have hdigits : "[cjk][num].[num][num]".toList.any isDigit = false := by decide
  have hterm : Text.IsEchoTerm "[cjk][num].[num][num]".toList :=
    { ne_nil := by decide
      trim := by decide
      newline := by decide
      separator := by decide
      dollar := by decide
      digit := by
        intro w d hd hoccurs
        have hmem : d ∈ "[cjk][num].[num][num]".toList :=
          hoccurs.subset (List.mem_append_right w.marker (List.mem_singleton_self d))
        exact List.any_eq_false.mp hdigits d hmem hd
      few := by decide
      wholeLine := by decide
      alternative := by decide
      shield := by decide
      delete := by decide }
  have hmarks : (evaluate "a章12.345\n章6.7".toList "[cjk][num].[num][num]".toList).map
        Result.segments
      = .ok [⟨.kept, "a".toList⟩, ⟨.added, "章12.345".toList⟩, ⟨.kept, "\n章6.7".toList⟩] := by
    decide
  obtain ⟨marked, replaced, hmarked, hreplaced, htext, hsegments⟩ :=
    evaluate_echo hterm "a章12.345\n章6.7".toList
  rw [hmarked, Except.map, Except.ok.injEq] at hmarks
  refine ⟨hterm, marked, replaced, hmarked, hreplaced, hmarks, ?_, htext⟩
  rw [hsegments, hmarks]
  rfl

end RuleSweep
