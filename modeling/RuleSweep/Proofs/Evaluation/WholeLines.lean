/-
# Marking whole lines

The same search terms can be used as rules for lines and as rules for text.  As rules for lines
they mark the lines inside which one of them is found; as rules for text they mark places, and
where the finds of several terms overlap, only some of them.  Still, the lines that are marked
are those inside which a place is marked: `evaluate_whole_lines`.
-/
import RuleSweep.Proofs.RuleList.Markings
import RuleSweep.Proofs.Sweep.Marks

namespace RuleSweep

/-- A line as a mark. -/
def Line.mark (line : Line) : Mark :=
  ⟨line.start, line.text⟩

/-- A line is told by its mark. -/
theorem Line.mark_injective : Function.Injective Line.mark := by
  intro line other h
  cases line
  cases other
  cases h
  rfl

/-- Something that one of several terms stands for is found in a text. -/
def IsFound (terms : List Text) (t : Text) : Prop :=
  ∃ term ∈ terms, ∃ pattern, Pattern.ofSearch? term = some pattern ∧ pattern.find? t ≠ none

/-- The matchers of some terms find what the terms stand for. -/
theorem SearchesFor.exists_find?_iff {scope : Scope} {terms : List Text} {matchers : List Matcher}
    (h : SearchesFor scope terms matchers) (t : Text) :
    (∃ matcher ∈ matchers, matcher.pattern.find? t ≠ none) ↔ IsFound terms t := by
  constructor
  · rintro ⟨matcher, hmatcher, hfind⟩
    obtain ⟨term, hterm, hpattern⟩ := (h.search matcher.pattern).mp ⟨matcher, hmatcher, rfl⟩
    exact ⟨term, hterm, matcher.pattern, hpattern, hfind⟩
  · rintro ⟨term, hterm, pattern, hpattern, hfind⟩
    obtain ⟨matcher, hmatcher, rfl⟩ := (h.search pattern).mpr ⟨term, hterm, hpattern⟩
    exact ⟨matcher, hmatcher, hfind⟩

section Marking

variable {matchers : List Matcher} (hsolid : ∀ matcher ∈ matchers, matcher.pattern.Solid)
  (hline : ∀ matcher ∈ matchers, matcher.pattern.WithinLine)

/-! ## What is marked in a sweep -/

include hsolid in
/-- Where all rules only mark, what is not kept is marked. -/
theorem kind_eq_added (hmarks : ∀ matcher ∈ matchers, matcher.rule.replaces = false)
    {source : Text} {segment : Segment} (h : segment ∈ sweep matchers source)
    (hkind : segment.kind ≠ .kept) : segment.kind = .added := by
  rw [sweep_eq_map_segment, List.mem_map] at h
  obtain ⟨stretch, hstretch, rfl⟩ := h
  have hstays := (stays_of_mem_cut hsolid hmarks hstretch).kind
  cases hsegment : stretch.segment.kind with
  | kept => exact absurd hsegment hkind
  | added => rfl
  | replaced => exact absurd hsegment hstays

include hsolid in
/-- What is marked is not empty. -/
theorem text_ne_nil_of_added {source text : Text} (h : ⟨.added, text⟩ ∈ sweep matchers source) :
    text ≠ [] := by
  obtain ⟨-, htiles⟩ := tiles_sweep hsolid source
  obtain ⟨before, span, rest, hspan, -, hstands⟩ := htiles.exists_standsFor h
  cases hstands with
  | marked _ _ _ _ => exact hspan
  | markedLine _ _ _ _ _ => exact hspan

variable {scope : Scope} {terms : List Text}

include hsolid hline in
/-- A text holds a mark exactly if something is found in it. -/
theorem SearchesFor.exists_mark_iff (h : SearchesFor scope terms matchers) (start : Nat)
    (t : Text) :
    (∃ mark, mark ∈ Segment.marksFrom start (sweep matchers t)) ↔ IsFound terms t := by
  rw [← h.exists_find?_iff, ← exists_not_kept_iff hsolid hline]
  constructor
  · rintro ⟨mark, hmark⟩
    exact ⟨_, Segment.exists_segment_of_mem_marksFrom hmark, SegmentKind.noConfusion⟩
  · rintro ⟨segment, hsegment, hkind⟩
    exact Segment.exists_mark_of_mem hsegment (kind_eq_added hsolid h.marks hsegment hkind) start

/-! ## Rules for lines -/

include hsolid in
/-- As rules for lines, terms mark a whole line if one of them is found inside it. -/
theorem SearchesFor.sweep_line (h : SearchesFor .line terms matchers) {t : Text} (ht : t.IsLine)
    (hfound : IsFound terms t) : sweep matchers t = [⟨.added, t⟩] := by
  obtain ⟨matcher, hmatcher, hfind⟩ := (h.exists_find?_iff t).mpr hfound
  have hmem : matcher ∈ lineMatchers matchers := by
    rw [lineMatchers, List.mem_filter, decide_eq_true_eq]
    exact ⟨hmatcher, h.scope matcher hmatcher⟩
  cases hclaim : Claim.ofLine? (lineMatchers matchers) ⟨0, t⟩ with
  | none => exact absurd (Claim.ofLine?_eq_none_iff.mp hclaim matcher hmem) hfind
  | some claim =>
    obtain ⟨htext, hclaimant, -⟩ := Claim.ofLine?_eq_some hclaim
    have hmarks := h.marks claim.matcher (List.mem_of_mem_filter hclaimant)
    rw [sweep_eq_map_segment, cut_of_claim hsolid ht hclaim, List.map_singleton, Stretch.segment,
      Claim.segment_of_marks hmarks, htext]

include hsolid hline in
/-- **As rules for lines, terms mark the lines inside which one of them is found.** -/
theorem SearchesFor.mark_mem_iff (h : SearchesFor .line terms matchers) (source : Text)
    (line : Line) :
    line.mark ∈ Segment.marksFrom 0 (sweep matchers source) ↔
      line ∈ Line.ofSource source ∧ IsFound terms line.text := by
  rw [marks_sweep hsolid hline h.marks, List.mem_flatMap]
  constructor
  · rintro ⟨other, hother, hmark⟩
    have hfound := (h.exists_mark_iff hsolid hline other.start other.text).mp ⟨_, hmark⟩
    rw [h.sweep_line hsolid (Line.isLine_of_mem hother) hfound] at hmark
    rw [Line.mark_injective (List.mem_singleton.mp hmark)]
    exact ⟨hother, hfound⟩
  · rintro ⟨hmem, hfound⟩
    refine ⟨line, hmem, ?_⟩
    rw [h.sweep_line hsolid (Line.isLine_of_mem hmem) hfound]
    exact List.mem_singleton_self _

/-! ## Rules for text -/

include hsolid hline in
/-- **A mark lies inside a line exactly if one of the terms is found inside the line.** -/
theorem SearchesFor.exists_mark_inside_iff (h : SearchesFor scope terms matchers)
    {source : Text} {line : Line} (hmem : line ∈ Line.ofSource source) :
    (∃ mark ∈ Segment.marksFrom 0 (sweep matchers source), mark.Inside line) ↔
      IsFound terms line.text := by
  have hbounds : ∀ other : Line, ∀ mark ∈
      Segment.marksFrom other.start (sweep matchers other.text), mark.Inside other := by
    intro other mark hmark
    have hbounds := Segment.bounds_of_mem_marksFrom hmark
    rwa [textOf_sweep_of_marks hsolid h.marks] at hbounds
  rw [marks_sweep hsolid hline h.marks, ← h.exists_mark_iff hsolid hline line.start]
  constructor
  · rintro ⟨mark, hmark, hinside⟩
    obtain ⟨other, hother, hmark⟩ := List.mem_flatMap.mp hmark
    -- a mark holds a character, so it cannot lie inside two lines
    have hpos := List.length_pos_of_ne_nil
      (text_ne_nil_of_added hsolid (Segment.exists_segment_of_mem_marksFrom hmark))
    have hother' := hbounds other mark hmark
    have heq : line = other := by
      rcases Line.apart_of_mem_placeFrom hmem hother with heq | hbefore | hbehind
      · exact heq
      · unfold Mark.Inside Mark.stop at hinside hother'
        omega
      · unfold Mark.Inside Mark.stop at hinside hother'
        omega
    rw [heq]
    exact ⟨mark, hmark⟩
  · rintro ⟨mark, hmark⟩
    exact ⟨mark, List.mem_flatMap.mpr ⟨line, hmem, hmark⟩, hbounds line mark hmark⟩

end Marking

/-! ## Evaluations -/

/-- **The lines that search terms mark as rules for lines are those inside which they mark
something as rules for text.**  Neither way the text is changed. -/
theorem evaluate_whole_lines {terms : List Text}
    (h : ∀ term ∈ terms, term.IsSearch ∧ ¬ lineMark <+: term) (source : Text) :
    ∃ byLine byText,
      evaluate source (Text.joinWith ['\n'] (terms.map (lineMark ++ ·))) = .ok byLine ∧
      evaluate source (Text.joinWith ['\n'] terms) = .ok byText ∧
      byLine.text = source ∧ byText.text = source ∧
      ∀ line : Line, line.mark ∈ byLine.marks ↔
        line ∈ Line.ofSource source ∧ ∃ mark ∈ byText.marks, mark.Inside line := by
  obtain ⟨setLine, hsetLine, hsearchLine⟩ := RuleSet.exists_searchesFor h .line
  obtain ⟨setText, hsetText, hsearchText⟩ := RuleSet.exists_searchesFor h .text
  have hmap : terms.map (Scope.text.mark ++ ·) = terms := List.map_id terms
  rw [hmap] at hsetText
  obtain ⟨byLine, hbyLine, hsegmentsLine, -⟩ := evaluate_of_ofList hsetLine source
  obtain ⟨byText, hbyText, hsegmentsText, -⟩ := evaluate_of_ofList hsetText source
  refine ⟨byLine, byText, hbyLine, hbyText, ?_, ?_, ?_⟩
  · rw [Result.text, hsegmentsLine,
      textOf_sweep_of_marks (RuleSet.solid_of_ofList hsetLine) hsearchLine.marks]
  · rw [Result.text, hsegmentsText,
      textOf_sweep_of_marks (RuleSet.solid_of_ofList hsetText) hsearchText.marks]
  · intro line
    rw [Result.marks, Result.marks, hsegmentsLine, hsegmentsText,
      hsearchLine.mark_mem_iff (RuleSet.solid_of_ofList hsetLine)
        (RuleSet.withinLine_of_ofList hsetLine)]
    apply and_congr_right
    intro hmem
    rw [hsearchText.exists_mark_inside_iff (RuleSet.solid_of_ofList hsetText)
      (RuleSet.withinLine_of_ofList hsetText) hmem]

/-- Two terms whose finds overlap: as rules for text the longer find hides the other one, as
rules for lines they mark the same lines. -/
theorem evaluate_whole_lines_overlap :
    (∀ term ∈ ["ab".toList, "b[num]".toList], Text.IsSearch term ∧ ¬ lineMark <+: term) ∧
    ∃ byLine byText,
      evaluate "b7\r\nab12\nba\nb3ab".toList "[line]ab\n[line]b[num]".toList = .ok byLine ∧
      evaluate "b7\r\nab12\nba\nb3ab".toList "ab\nb[num]".toList = .ok byText ∧
      byLine.marks = [⟨0, "b7\r\n".toList⟩, ⟨4, "ab12\n".toList⟩, ⟨12, "b3ab".toList⟩] ∧
      byText.marks = [⟨0, "b7".toList⟩, ⟨4, "ab".toList⟩, ⟨12, "b3".toList⟩, ⟨14, "ab".toList⟩] ∧
      ((⟨4, "ab12\n".toList⟩ : Line).mark ∈ byLine.marks ↔
        (⟨4, "ab12\n".toList⟩ : Line) ∈ Line.ofSource "b7\r\nab12\nba\nb3ab".toList ∧
          ∃ mark ∈ byText.marks, mark.Inside ⟨4, "ab12\n".toList⟩) := by
  have hterms : ∀ term ∈ ["ab".toList, "b[num]".toList],
      Text.IsSearch term ∧ ¬ lineMark <+: term := by
    intro term hterm
    rcases List.mem_pair.mp hterm with rfl | rfl
    · exact ⟨⟨by decide, by decide, by decide, by decide⟩, by decide⟩
    · exact ⟨⟨by decide, by decide, by decide, by decide⟩, by decide⟩
  have hlineMarks :
      (evaluate "b7\r\nab12\nba\nb3ab".toList "[line]ab\n[line]b[num]".toList).map Result.marks
        = .ok [⟨0, "b7\r\n".toList⟩, ⟨4, "ab12\n".toList⟩, ⟨12, "b3ab".toList⟩] := by decide
  have htextMarks :
      (evaluate "b7\r\nab12\nba\nb3ab".toList "ab\nb[num]".toList).map Result.marks
        = .ok [⟨0, "b7".toList⟩, ⟨4, "ab".toList⟩, ⟨12, "b3".toList⟩, ⟨14, "ab".toList⟩] := by
    decide
  obtain ⟨byLine, byText, hbyLine, hbyText, -, -, hiff⟩ :=
    evaluate_whole_lines hterms "b7\r\nab12\nba\nb3ab".toList
  have hlines : Text.joinWith ['\n'] (["ab".toList, "b[num]".toList].map (lineMark ++ ·))
      = "[line]ab\n[line]b[num]".toList := by decide
  have htexts : Text.joinWith ['\n'] ["ab".toList, "b[num]".toList]
      = "ab\nb[num]".toList := by decide
  rw [hlines] at hbyLine
  rw [htexts] at hbyText
  rw [hbyLine, Except.map, Except.ok.injEq] at hlineMarks
  rw [hbyText, Except.map, Except.ok.injEq] at htextMarks
  exact ⟨hterms, byLine, byText, hbyLine, hbyText, hlineMarks, htextMarks, hiff _⟩

end RuleSweep
