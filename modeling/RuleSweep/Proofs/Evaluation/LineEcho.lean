/-
# Replacing a line by itself

A rule for whole lines that replaces a line by the line itself changes nothing.  The mark of
the whole line stands for the line without its terminator, and a line that is replaced keeps
its terminator (`Claim.segment_of_replaces`).  The terminator that is taken away is the one
that is put back, on whatever a line ends: `Text.withoutTerminator_append_terminator`.  So the
segments are those of the rule that only marks the line, but they count as replaced:
`evaluate_lineEcho`.
-/
import RuleSweep.Proofs.Evaluation.Echo
import RuleSweep.Proofs.RuleList.Markings

namespace RuleSweep

/-! ## The two rules -/

/-- The template of the line that was found. -/
def Template.line : Template :=
  [.wholeLine]

/-- The line that was found is rendered without its terminator. -/
theorem Template.render_line (found : Text) (groups : Groups) :
    Template.line.render found groups = found.withoutTerminator :=
  List.append_nil _

/-- In a search for whole lines without wildcards, the mark for whole lines stands for the line
that was found. -/
theorem Template.ofReplacement_lineMark : ofReplacement lineMark [] .line = .ok line := by
  decide

/-- A rule made to replace by itself the line that it looks at. -/
def Rule.lineEchoing (rule : Rule) : Rule :=
  { rule with action := .replace lineMark false, row := rowOf rule.search lineMark }

/-- A matcher made to replace by itself the line that it looks at. -/
def Matcher.lineEchoing (matcher : Matcher) : Matcher :=
  ⟨matcher.rule.lineEchoing, matcher.pattern, .line⟩

namespace Matcher

/-- A matcher that replaces finds the same as before. -/
theorem searchesLike_lineEchoing (matcher : Matcher) :
    matcher.lineEchoing.SearchesLike matcher where
  pattern := rfl
  scope := rfl

section OfRule

variable {rule : Rule} (hscope : rule.scope = .line)
  (hwildcards : ∀ w : Wildcard, ¬ w.marker <:+: rule.body)
include hscope hwildcards

/-- The matcher of the rule that replaces is made of what the rule searches for. -/
theorem ofRule_lineEchoing :
    ofRule rule.lineEchoing
      = match Pattern.ofSearch? rule.body with
        | none => .error (.nothingToFind rule.body)
        | some pattern => .ok ⟨rule.lineEchoing, pattern, .line⟩ := by
  have hbody : rule.lineEchoing.body = rule.body := rfl
  rw [ofRule, hbody]
  cases hpattern : Pattern.ofSearch? rule.body with
  | none => rfl
  | some pattern =>
    have htemplate : templateOf rule.lineEchoing pattern.wildcards = .ok .line := by
      rw [Pattern.wildcards_of_ofSearch? hpattern hwildcards, ← Template.ofReplacement_lineMark,
        ← hscope]
      rfl
    simp only [htemplate]

/-- The rule that replaces does not spoil a rule list. -/
theorem fault?_lineEchoing : rule.lineEchoing.fault? = none := by
  rw [Rule.fault?, ofRule_lineEchoing hscope hwildcards]
  cases Pattern.ofSearch? rule.body <;> rfl

/-- **The rule that replaces has a matcher if the rule that marks has one**, and the one is
made from the other. -/
theorem ofRule?_lineEchoing (hmarks : rule.action = .mark) :
    ofRule? rule.lineEchoing = (ofRule? rule).map lineEchoing := by
  rw [ofRule?_of_marks hmarks, ofRule?, ofRule_lineEchoing hscope hwildcards]
  cases Pattern.ofSearch? rule.body <;> rfl

end OfRule

end Matcher

/-- **The rule that replaces a claimed line by the line makes of it the segment that the rule
which marks makes of it, but counts it as replaced.** -/
theorem Claim.segment_lineEchoing {claim : Claim} (hnewline : '\n' ∉ claim.line.text.dropLast)
    (hmarks : claim.matcher.rule.replaces = false) :
    (Stretch.claimed { claim with matcher := claim.matcher.lineEchoing }).segment
      = claim.segment.asReplaced := by
  have hreplaced : Claim.segment { claim with matcher := claim.matcher.lineEchoing }
      = ⟨.replaced, claim.line.text.withoutTerminator ++ claim.line.text.terminator⟩ :=
    segment_of_replaces (Template.render_line claim.line.text claim.groups)
      (Text.newline_notMem_withoutTerminator hnewline) rfl rfl
  rw [Stretch.segment, hreplaced, Text.withoutTerminator_append_terminator,
    segment_of_marks hmarks]
  rfl

/-! ## Rule lists -/

section Lists

variable {matchers : List Matcher} (hsolid : ∀ matcher ∈ matchers, matcher.pattern.Solid)
  (hscope : ∀ matcher ∈ matchers, matcher.rule.scope = .line)
  (hmarks : ∀ matcher ∈ matchers, matcher.rule.replaces = false)
include hsolid hscope hmarks

/-- Where all rules mark lines, the rules that replace the lines by themselves make the same
segments, but these count as replaced. -/
theorem segment_lineEchoing {source : Text} {stretch : Stretch}
    (hmem : stretch ∈ cut matchers source) :
    (stretch.rename Matcher.lineEchoing).segment = stretch.segment.asReplaced := by
  cases stretch with
  | kept text => rfl
  | claimed claim =>
    obtain ⟨hline, hofLine⟩ := ofLine?_of_claimed hsolid hmem
    have hmatcher := (Claim.ofLine?_eq_some hofLine).2.1
    exact Claim.segment_lineEchoing (Line.newline_notMem_dropLast hline)
      (hmarks claim.matcher (List.mem_of_mem_filter hmatcher))
  | found matcher candidate =>
    -- there are no rules for text
    obtain ⟨hmatcher, -⟩ := (strides_cut hsolid source).hit?_of_found hmem
    obtain ⟨hmatcher, htext⟩ := List.mem_filter.mp hmatcher
    rw [hscope matcher hmatcher] at htext
    exact absurd htext (by decide)

end Lists

/-- Segments that count as replaced make up the same text. -/
theorem Segment.textOf_map_asReplaced (segments : List Segment) :
    textOf (segments.map asReplaced) = textOf segments := by
  rw [textOf, List.flatMap_map, textOf]
  apply List.flatMap_congr
  intro segment _
  exact segment.text_asReplaced

/-- The mark for whole lines is a replacement as it stands. -/
theorem Rule.actionOf_lineMark : actionOf lineMark = .replace lineMark false := by
  decide

section LineEcho

variable {body : Text} (h : body.IsSearch)
include h

/-- The search for whole lines alone is a rule list with the rule that marks. -/
theorem Rule.ofList_lineMark_append :
    ofList (lineMark ++ body) = [marking 1 (lineMark ++ body)] := by
  refine ofList_of_body h.append_lineMark ?_
  rw [body_marking_lineMark_append h.trim]
  exact h.ne_nil

/-- With the mark for whole lines as its replacement, it is a rule list with the rule that
replaces. -/
theorem Rule.ofList_rowOf_lineMark :
    ofList (rowOf (lineMark ++ body) lineMark) = [(marking 1 (lineMark ++ body)).lineEchoing] := by
  have hbody : (marking 1 (lineMark ++ body)).body ≠ [] := by
    rw [body_marking_lineMark_append h.trim]
    exact h.ne_nil
  rw [ofList_rowOf h.append_lineMark hbody (by decide) (by decide) (by decide),
    actionOf_lineMark]
  rfl

variable (hwildcards : ∀ w : Wildcard, ¬ w.marker <:+: body)
include hwildcards

/-- **The rule sets of the two rule lists**: both have the matchers that mark, or the matchers
that are made from them. -/
theorem RuleSet.exists_lineEchoing :
    ∃ marker replacer, ofList (lineMark ++ body) = .ok marker ∧
      ofList (Rule.rowOf (lineMark ++ body) lineMark) = .ok replacer ∧
      replacer.matchers = marker.matchers.map Matcher.lineEchoing ∧
      ∀ matcher ∈ marker.matchers, matcher.rule = Rule.marking 1 (lineMark ++ body) := by
  have hscope : (Rule.marking 1 (lineMark ++ body)).scope = .line :=
    Rule.scopeOf_lineMark_append body
  have hsearch : ∀ w : Wildcard, ¬ w.marker <:+: (Rule.marking 1 (lineMark ++ body)).body := by
    rw [Rule.body_marking_lineMark_append h.trim]
    exact hwildcards
  have hof := Matcher.ofRule?_lineEchoing hscope hsearch rfl
  have hfault : (Rule.marking 1 (lineMark ++ body)).fault? = none := Rule.fault?_of_marks rfl
  have hfault' := Matcher.fault?_lineEchoing hscope hsearch
  have hmarker : ofRules [Rule.marking 1 (lineMark ++ body)] = .ok _ :=
    ofRules_eq_ok_iff.mpr ⟨by simp [hfault], rfl⟩
  have hreplacer : ofRules [(Rule.marking 1 (lineMark ++ body)).lineEchoing] = .ok _ :=
    ofRules_eq_ok_iff.mpr ⟨by simp [hfault'], rfl⟩
  rw [ofList, Rule.ofList_lineMark_append h, ofList, Rule.ofList_rowOf_lineMark h]
  refine ⟨_, _, hmarker, hreplacer, ?_, ?_⟩
  · simp only [List.filterMap_cons, List.filterMap_nil, hof]
    cases Matcher.ofRule? (Rule.marking 1 (lineMark ++ body)) <;> rfl
  · intro matcher hmatcher
    have hall : ∀ rule ∈ [Rule.marking 1 (lineMark ++ body)], rule.action = .mark := by
      rw [List.forall_mem_singleton]
      rfl
    obtain ⟨rule, hrule, -, heq⟩ := (Matcher.mem_filterMap_ofRule? hall).mp hmatcher
    rw [heq]
    exact List.mem_singleton.mp hrule

/-- **Replacing a line by itself changes nothing.**  The text stays as it is, whatever its lines
end in, and the segments are those of the rule that only marks the lines, with what is marked
counted as replaced. -/
theorem evaluate_lineEcho (source : Text) :
    ∃ marked replaced, evaluate source (lineMark ++ body) = .ok marked ∧
      evaluate source (Rule.rowOf (lineMark ++ body) lineMark) = .ok replaced ∧
      replaced.text = source ∧
      replaced.segments = marked.segments.map Segment.asReplaced := by
  obtain ⟨marker, replacer, hmarker, hreplacer, hmatchers, hrule⟩ :=
    RuleSet.exists_lineEchoing h hwildcards
  obtain ⟨marked, hmarked, hsegments, -⟩ := evaluate_of_ofList hmarker source
  obtain ⟨replaced, hreplaced, hsegments', -⟩ := evaluate_of_ofList hreplacer source
  have hsolid := RuleSet.solid_of_ofList hmarker
  have hscope : ∀ matcher ∈ marker.matchers, matcher.rule.scope = .line := by
    intro matcher hmatcher
    rw [hrule matcher hmatcher]
    exact Rule.scopeOf_lineMark_append body
  have hmarks : ∀ matcher ∈ marker.matchers, matcher.rule.replaces = false := by
    intro matcher hmatcher
    rw [hrule matcher hmatcher]
    rfl
  have hcut : cut replacer.matchers source
      = (cut marker.matchers source).map (Stretch.rename Matcher.lineEchoing) := by
    rw [hmatchers]
    exact cut_map Matcher.searchesLike_lineEchoing hsolid (RuleSet.withinLine_of_ofList hmarker)
      source
  have hmap : replaced.segments = marked.segments.map Segment.asReplaced := by
    rw [hsegments', hsegments, sweep_eq_map_segment, sweep_eq_map_segment, hcut, List.map_map,
      List.map_map]
    apply List.map_congr_left
    intro stretch hstretch
    exact segment_lineEchoing hsolid hscope hmarks hstretch
  refine ⟨marked, replaced, hmarked, hreplaced, ?_, hmap⟩
  rw [Result.text, hmap, Segment.textOf_map_asReplaced, hsegments,
    textOf_sweep_of_marks hsolid hmarks]

end LineEcho

/-- Lines that end in several carriage returns, in one, or in none, and a last line without a
newline that ends in a carriage return: each is put back with what it ends in. -/
theorem evaluate_lineEcho_returns :
    Text.IsSearch "a[or]\\[or]".toList ∧ (∀ w : Wildcard, ¬ w.marker <:+: "a[or]\\[or]".toList) ∧
    ∃ marked replaced,
      evaluate "xa\r\r\ny\n[or]\r\n\ra\r".toList "[line]a[or]\\[or]".toList = .ok marked ∧
      evaluate "xa\r\r\ny\n[or]\r\n\ra\r".toList "[line]a[or]\\[or] /// [line]".toList
        = .ok replaced ∧
      replaced.segments = [⟨.replaced, "xa\r\r\n".toList⟩, ⟨.kept, "y\n".toList⟩,
        ⟨.replaced, "[or]\r\n".toList⟩, ⟨.replaced, "\ra\r".toList⟩] ∧
      replaced.text = "xa\r\r\ny\n[or]\r\n\ra\r".toList := by
  have hsearch : Text.IsSearch "a[or]\\[or]".toList :=
    { ne_nil := by decide
      trim := by decide
      newline := by decide
      separator := by decide }
  have hwildcards : ∀ w : Wildcard, ¬ w.marker <:+: "a[or]\\[or]".toList := by
    intro w
    cases w <;> decide
  have hmarks : (evaluate "xa\r\r\ny\n[or]\r\n\ra\r".toList "[line]a[or]\\[or]".toList).map
        Result.segments
      = .ok [⟨.added, "xa\r\r\n".toList⟩, ⟨.kept, "y\n".toList⟩, ⟨.added, "[or]\r\n".toList⟩,
          ⟨.added, "\ra\r".toList⟩] := by
    decide
  obtain ⟨marked, replaced, hmarked, hreplaced, htext, hsegments⟩ :=
    evaluate_lineEcho hsearch hwildcards "xa\r\r\ny\n[or]\r\n\ra\r".toList
  have hlist : lineMark ++ "a[or]\\[or]".toList = "[line]a[or]\\[or]".toList := by decide
  rw [hlist] at hmarked hreplaced
  rw [hmarked, Except.map, Except.ok.injEq] at hmarks
  refine ⟨hsearch, hwildcards, marked, replaced, hmarked, hreplaced, ?_, htext⟩
  rw [hsegments, hmarks]
  rfl

end RuleSweep
