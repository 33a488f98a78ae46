/-
# What becomes of a line

Since the lines of a source are swept one by one, the text of a sweep is what becomes of the
lines, one after the other (`textOf_sweep`), and its segments can be counted line by line
(`countP_sweep`).  A line is either claimed, and then it is the only stretch of its sweep
(`cut_of_claim`), or its sweep holds no claim (`notMem_cut_of_not_claim`).  A stretch of which
nothing is replaced stays as it is (`Stretch.Stays`), and if all stretches of a sweep do, so
does the source: `textOf_of_stays`.
-/
import Mathlib.Algebra.GroupWithZero.Nat
import RuleSweep.Proofs.Sweep.Newlines
import RuleSweep.Proofs.Text.Lines

namespace RuleSweep

/-! ## Text and counts of glued segments -/

namespace Segment

/-- The text of segments that follow one another. -/
theorem textOf_append (front back : List Segment) :
    textOf (front ++ back) = textOf front ++ textOf back :=
  List.flatMap_append

/-- The text of a segment in front of others. -/
theorem textOf_cons (segment : Segment) (later : List Segment) :
    textOf (segment :: later) = segment.text ++ textOf later :=
  List.flatMap_cons

/-- Gluing changes no text. -/
theorem textOf_glue (front back : List Segment) :
    textOf (glue front back) = textOf front ++ textOf back := by
  unfold glue
  split
  · next text more later hlast =>
    have hfront : front = front.dropLast ++ [⟨.kept, text⟩] :=
      (List.dropLast_append_getLast? _ hlast).symm
    conv_rhs => rw [hfront]
    rw [textOf_append, textOf_append, textOf_cons, textOf_cons, textOf_cons]
    simp [textOf]
  · exact textOf_append _ _

/-- The text of parts that are glued together. -/
theorem textOf_foldr_glue (parts : List (List Segment)) :
    textOf (parts.foldr glue []) = (parts.map textOf).flatten := by
  induction parts with
  | nil => rfl
  | cons part parts ih =>
    rw [List.foldr_cons, textOf_glue, ih, List.map_cons, List.flatten_cons]

/-- The segments of a kind that is not kept in parts that are glued together. -/
theorem countP_foldr_glue {kind : SegmentKind} (h : kind ≠ .kept) (parts : List (List Segment)) :
    (parts.foldr glue []).countP (·.kind = kind)
      = (parts.map (List.countP (·.kind = kind))).sum := by
  induction parts with
  | nil => rfl
  | cons part parts ih =>
    rw [List.foldr_cons, countP_glue h, ih, List.map_cons, List.sum_cons]

end Segment

section Lines

variable {matchers : List Matcher} (hsolid : ∀ matcher ∈ matchers, matcher.pattern.Solid)
  (hline : ∀ matcher ∈ matchers, matcher.pattern.WithinLine)
include hsolid hline

/-- **The text of a sweep is what becomes of the lines**, one after the other. -/
theorem textOf_sweep (source : Text) :
    Segment.textOf (sweep matchers source)
      = (source.lines.map fun line => Segment.textOf (sweep matchers line)).flatten := by
  rw [sweep_eq_foldr_lines hsolid hline, Segment.textOf_foldr_glue, List.map_map]
  rfl

/-- The segments of a kind that is not kept can be counted line by line. -/
theorem countP_sweep {kind : SegmentKind} (h : kind ≠ .kept) (source : Text) :
    (sweep matchers source).countP (·.kind = kind)
      = (source.lines.map fun line => (sweep matchers line).countP (·.kind = kind)).sum := by
  rw [sweep_eq_foldr_lines hsolid hline, Segment.countP_foldr_glue h, List.map_map]
  rfl

end Lines

/-! ## The sweep of a single line -/

/-- A line is its own first line. -/
theorem Text.IsLine.firstLine_eq {line : Text} (h : line.IsLine) : line.firstLine = line :=
  Text.firstLine_of_lines h.lines_eq

section Line

variable {matchers : List Matcher} (hsolid : ∀ matcher ∈ matchers, matcher.pattern.Solid)
  {line : Text} (hisLine : line.IsLine)
include hsolid hisLine

/-- The claims of the sweep of a line: the one on this line, if there is one. -/
theorem claims_cut_line :
    (cut matchers line).filterMap Stretch.claim?
      = (Claim.ofLine? (lineMatchers matchers) ⟨0, line⟩).toList := by
  rw [claims_cut hsolid, Claim.ofSource, Line.ofSource, hisLine.lines_eq, Line.placeFrom,
    Line.placeFrom, List.filterMap_cons, List.filterMap_nil]
  cases Claim.ofLine? (lineMatchers matchers) ⟨0, line⟩ <;> rfl

/-- **A line that is claimed is the only stretch of its sweep.** -/
theorem cut_of_claim {claim : Claim}
    (hclaim : Claim.ofLine? (lineMatchers matchers) ⟨0, line⟩ = some claim) :
    cut matchers line = [.claimed claim] := by
  have hstrides := strides_cut hsolid line
  have hfirstLine := hisLine.firstLine_eq
  generalize cut matchers line = stretches at hstrides
  generalize hahead : line = ahead at hstrides
  cases hstrides with
  | done => exact absurd hahead hisLine.ne_nil
  | @stride _ passed rest made later hpassed first others =>
    subst hahead
    rw [← List.length_nil (α := Char)] at hclaim
    cases first with
    | kept isFree _ =>
      exact absurd isFree (Free.not_of_claim Text.endsLine_nil hclaim hfirstLine)
    | found isFree ahead _ =>
      rw [ahead] at hclaim hfirstLine
      exact absurd isFree (Free.not_of_claim Text.endsLine_nil hclaim hfirstLine)
    | @claimed _ _ other _ begins claims =>
      -- the claimed line is the whole text, so nothing is left behind it
      rw [hfirstLine] at begins
      have hrest : rest = [] := List.append_right_eq_self.mp begins
      subst hrest
      rw [List.append_nil, claims, Option.some.injEq] at hclaim
      rw [hclaim]
      generalize hnil : ([] : Text) = ahead at others
      cases others with
      | done => rfl
      | stride hnext _ _ => exact absurd (List.append_eq_nil_iff.mp hnil.symm).1 hnext

/-- The sweep of a line that is not claimed holds no claim. -/
theorem notMem_cut_of_not_claim
    (hclaim : Claim.ofLine? (lineMatchers matchers) ⟨0, line⟩ = none) (claim : Claim) :
    .claimed claim ∉ cut matchers line := by
  intro hmem
  have hnone := claims_cut_line hsolid hisLine
  rw [hclaim, Option.toList_none, List.filterMap_eq_nil_iff] at hnone
  exact absurd (hnone (.claimed claim) hmem) (by simp [Stretch.claim?])

end Line

/-! ## Stretches that stay -/

/-- A stretch that stays as it is, be it kept or marked. -/
structure Stretch.Stays (stretch : Stretch) : Prop where
  /-- Its text is not changed. -/
  text : stretch.segment.text = stretch.span
  /-- It is not replaced. -/
  kind : stretch.segment.kind ≠ .replaced

namespace Stretch

/-- What is kept stays. -/
theorem stays_kept (text : Text) : (kept text).Stays :=
  ⟨rfl, SegmentKind.noConfusion⟩

/-- A find of a rule that marks is marked. -/
theorem segment_found_of_marks {matcher : Matcher} {candidate : Candidate}
    (h : matcher.rule.replaces = false) :
    (found matcher candidate).segment = ⟨.added, candidate.text⟩ := by
  simp [segment, Matcher.kind, Matcher.render, h]

/-- A find of a rule that marks stays. -/
theorem stays_found {matcher : Matcher} {candidate : Candidate}
    (h : matcher.rule.replaces = false) : (found matcher candidate).Stays := by
  constructor
  · rw [segment_found_of_marks h]
    rfl
  · rw [segment_found_of_marks h]
    exact SegmentKind.noConfusion

/-- A line that a rule marks stays. -/
theorem stays_claimed {claim : Claim} (h : claim.matcher.rule.replaces = false) :
    (claimed claim).Stays := by
  constructor
  · rw [segment, Claim.segment_of_marks h]
    rfl
  · rw [segment, Claim.segment_of_marks h]
    exact SegmentKind.noConfusion

end Stretch

/-- **If all stretches stay, the text is what they span.** -/
theorem textOf_of_stays {stretches : List Stretch} (h : ∀ stretch ∈ stretches, stretch.Stays) :
    Segment.textOf (stretches.map Stretch.segment) = (stretches.map Stretch.span).flatten := by
  rw [Segment.textOf, List.flatMap_map, ← List.flatMap_def]
  apply List.flatMap_congr
  intro stretch hstretch
  exact (h stretch hstretch).text

/-- If all stretches stay, nothing is replaced. -/
theorem countP_replaced_of_stays {stretches : List Stretch}
    (h : ∀ stretch ∈ stretches, stretch.Stays) :
    (stretches.map Stretch.segment).countP (·.kind = .replaced) = 0 := by
  rw [List.countP_eq_zero, List.forall_mem_map]
  intro stretch hstretch
  simpa using (h stretch hstretch).kind

section Marking

variable {matchers : List Matcher} (hsolid : ∀ matcher ∈ matchers, matcher.pattern.Solid)
include hsolid

/-- The spans of a sweep, put together, are the source. -/
theorem flatten_span_cut (source : Text) :
    ((cut matchers source).map Stretch.span).flatten = source :=
  ((strides_cut hsolid source).tiles hsolid).1

/-- A find in a sweep stays if the rules for text only mark. -/
theorem stays_of_found (hmarks : ∀ matcher ∈ textMatchers matchers, matcher.rule.replaces = false)
    {source : Text} {matcher : Matcher} {candidate : Candidate}
    (hmem : .found matcher candidate ∈ cut matchers source) :
    (Stretch.found matcher candidate).Stays :=
  Stretch.stays_found (hmarks matcher ((strides_cut hsolid source).hit?_of_found hmem).1)

/-- A claim in a sweep is the claim on a line of the source. -/
theorem ofLine?_of_claimed {source : Text} {claim : Claim}
    (hmem : .claimed claim ∈ cut matchers source) :
    claim.line ∈ Line.ofSource source ∧
      Claim.ofLine? (lineMatchers matchers) claim.line = some claim := by
  have hclaim : claim ∈ Claim.ofSource (lineMatchers matchers) source := by
    rw [← claims_cut hsolid source, List.mem_filterMap]
    exact ⟨_, hmem, rfl⟩
  obtain ⟨line, hline, hofLine⟩ := List.mem_filterMap.mp hclaim
  rw [(Claim.ofLine?_eq_some hofLine).1]
  exact ⟨hline, hofLine⟩

/-- A claim in a sweep is that of a rule for lines. -/
theorem matcher_mem_of_claimed {source : Text} {claim : Claim}
    (hmem : .claimed claim ∈ cut matchers source) : claim.matcher ∈ lineMatchers matchers :=
  (Claim.ofLine?_eq_some (ofLine?_of_claimed hsolid hmem).2).2.1

/-- Where all rules only mark, everything stays. -/
theorem stays_of_mem_cut (hmarks : ∀ matcher ∈ matchers, matcher.rule.replaces = false)
    {source : Text} {stretch : Stretch} (hmem : stretch ∈ cut matchers source) : stretch.Stays := by
  cases stretch with
  | kept text => exact Stretch.stays_kept text
  | found matcher candidate =>
    refine stays_of_found hsolid ?_ hmem
    intro matcher hmatcher
    exact hmarks matcher (List.mem_of_mem_filter hmatcher)
  | claimed claim =>
    have hmatcher := matcher_mem_of_claimed hsolid hmem
    exact Stretch.stays_claimed (hmarks claim.matcher (List.mem_of_mem_filter hmatcher))

end Marking

end RuleSweep
