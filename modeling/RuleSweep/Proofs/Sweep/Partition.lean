/-
# A sweep partitions the source

The segments of a sweep stand one by one for spans of the source.  The spans are not empty,
they follow one another, and together they are the source (`Strides.tiles`).  What a segment
holds is determined by its span: `StandsFor` lists the five ways.  No two neighbours are
both kept (`Strides.isChain`), and the counters of a result count the segments of their kind.
`sweep_tiles` says all of this of the sweep of any rules.
-/
import Mathlib.Data.List.Chain
import RuleSweep.Proofs.RuleList
import RuleSweep.Proofs.Sweep.Stride
import RuleSweep.Evaluation

namespace RuleSweep

/-! ## Tilings -/

/-- What a segment can hold that stands for a span of a source, which has the text `behind`
behind it and the text `rest` ahead of it. -/
inductive StandsFor (matchers : List Matcher) (behind span rest : Text) : Segment → Prop
  /-- The span itself, if nothing was found. -/
  | kept : StandsFor matchers behind span rest ⟨.kept, span⟩
  /-- The span itself, if it is a find of a rule for text that marks. -/
  | marked {matcher : Matcher} {groups : Groups} (mem : matcher ∈ matchers)
      (scope : matcher.rule.scope = .text) (marks : matcher.rule.replaces = false)
      (hit : matcher.pattern.hit? (span ++ rest) = some ⟨span.length, groups⟩) :
      StandsFor matchers behind span rest ⟨.added, span⟩
  /-- What the template of a rule for text that replaces makes of the span and of the
  groups of the find. -/
  | replaced {matcher : Matcher} {groups : Groups} (mem : matcher ∈ matchers)
      (scope : matcher.rule.scope = .text) (replaces : matcher.rule.replaces = true)
      (hit : matcher.pattern.hit? (span ++ rest) = some ⟨span.length, groups⟩) :
      StandsFor matchers behind span rest ⟨.replaced, matcher.template.render span groups⟩
  /-- The span itself, if it is a line that a rule for lines marks. -/
  | markedLine {matcher : Matcher} {found : Find} (mem : matcher ∈ matchers)
      (scope : matcher.rule.scope = .line) (marks : matcher.rule.replaces = false)
      (line : ⟨behind.length, span⟩ ∈ Line.ofSource (behind ++ span ++ rest))
      (fits : matcher.pattern.find? span = some found) :
      StandsFor matchers behind span rest ⟨.added, span⟩
  /-- What a claim makes of the span, if it is a line that a rule for lines replaces. -/
  | replacedLine {matcher : Matcher} {found : Find} (mem : matcher ∈ matchers)
      (scope : matcher.rule.scope = .line) (replaces : matcher.rule.replaces = true)
      (line : ⟨behind.length, span⟩ ∈ Line.ofSource (behind ++ span ++ rest))
      (fits : matcher.pattern.find? span = some found) :
      StandsFor matchers behind span rest
        ⟨.replaced, (Claim.segment ⟨⟨behind.length, span⟩, matcher, found.hit.groups⟩).text⟩

/-- Segments stand one by one for spans that follow one another and are not empty. -/
def Tiles (matchers : List Matcher) (behind : Text) : List Text → List Segment → Prop
  | [], [] => True
  | span :: spans, segment :: segments =>
    span ≠ [] ∧ StandsFor matchers behind span spans.flatten segment ∧
      Tiles matchers (behind ++ span) spans segments
  | _, _ => False

/-! ## Claimed lines and finds -/

/-- A claim makes a segment of the kind of its matcher. -/
theorem Claim.kind_segment (claim : Claim) : claim.segment.kind = claim.matcher.kind := by
  simp only [segment]
  split <;> rfl

/-- A matcher keeps nothing. -/
theorem Matcher.kind_ne_kept (matcher : Matcher) : matcher.kind ≠ .kept := by
  rw [kind]
  split <;> simp

/-- A claim stands for its line. -/
theorem Claim.standsFor {matchers : List Matcher} {behind span rest : Text} {claim : Claim}
    (hline : ⟨behind.length, span⟩ ∈ Line.ofSource (behind ++ span ++ rest))
    (hclaim : ofLine? (lineMatchers matchers) ⟨behind.length, span⟩ = some claim) :
    StandsFor matchers behind span rest claim.segment := by
  obtain ⟨heq, hmatcher, found, hfound, hgroups⟩ := ofLine?_eq_some hclaim
  obtain ⟨line, matcher, groups⟩ := claim
  simp only at heq hmatcher hfound hgroups
  subst heq hgroups
  rw [lineMatchers, List.mem_filter] at hmatcher
  have hscope : matcher.rule.scope = .line := by simpa using hmatcher.2
  cases hreplaces : matcher.rule.replaces with
  | true =>
    have hkind := kind_segment ⟨⟨behind.length, span⟩, matcher, found.hit.groups⟩
    simp only [Matcher.kind, hreplaces, if_true] at hkind
    have hsegment := StandsFor.replacedLine hmatcher.1 hscope hreplaces hline hfound
    rwa [← hkind] at hsegment
  | false =>
    have hsegment : Claim.segment ⟨⟨behind.length, span⟩, matcher, found.hit.groups⟩
        = ⟨.added, span⟩ := by
      simp [segment, hreplaces, Matcher.kind, Matcher.render]
    rw [hsegment]
    exact .markedLine hmatcher.1 hscope hreplaces hline hfound

/-- A find stands for the text that was found. -/
theorem standsFor_found {matchers : List Matcher} {behind span rest : Text} {matcher : Matcher}
    {groups : Groups} (start : Nat) (hmatcher : matcher ∈ textMatchers matchers)
    (hhit : matcher.pattern.hit? (span ++ rest) = some ⟨span.length, groups⟩) :
    StandsFor matchers behind span rest (Stretch.found matcher ⟨start, span, groups⟩).segment := by
  rw [textMatchers, List.mem_filter] at hmatcher
  have hscope : matcher.rule.scope = .text := by simpa using hmatcher.2
  cases hreplaces : matcher.rule.replaces with
  | true =>
    have hsegment : (Stretch.found matcher ⟨start, span, groups⟩).segment
        = ⟨.replaced, matcher.template.render span groups⟩ := by
      simp [Stretch.segment, Matcher.kind, Matcher.render, hreplaces]
    rw [hsegment]
    exact .replaced hmatcher.1 hscope hreplaces hhit
  | false =>
    have hsegment : (Stretch.found matcher ⟨start, span, groups⟩).segment = ⟨.added, span⟩ := by
      simp [Stretch.segment, Matcher.kind, Matcher.render, hreplaces]
    rw [hsegment]
    exact .marked hmatcher.1 hscope hreplaces hhit

/-! ## Spans -/

/-- The spans of the stretches that a stride makes are the text that it passes, and their
segments stand for them, whatever comes behind. -/
theorem Stride.tiles {matchers : List Matcher} {behind passed rest : Text} {made : List Stretch}
    (hsolid : ∀ matcher ∈ matchers, matcher.pattern.Solid) (hpassed : passed ≠ [])
    (h : Stride matchers behind passed rest made) {spans : List Text} {segments : List Segment}
    (hspans : spans.flatten = rest) (hlater : Tiles matchers (behind ++ passed) spans segments) :
    (made.map Stretch.span).flatten = passed ∧
      Tiles matchers behind (made.map Stretch.span ++ spans)
        (made.map Stretch.segment ++ segments) := by
  cases h with
  | @claimed _ _ claim begins line claims =>
    obtain ⟨heq, -⟩ := Claim.ofLine?_eq_some claims
    have hline : ⟨behind.length, passed⟩ ∈ Line.ofSource (behind ++ passed ++ rest) := by
      rw [Line.ofSource_eq_ahead, Line.mem_ahead]
      refine ⟨behind, passed ++ rest, List.append_assoc behind passed rest, ?_, begins, ?_⟩
      · exact List.append_ne_nil_of_left_ne_nil hpassed rest
      · rw [List.nil_append, line]
    have hspan : (Stretch.claimed claim).span = passed := by rw [Stretch.span, heq]
    refine ⟨?_, ?_⟩
    · rw [List.map_singleton, List.flatten_singleton, hspan]
    · rw [List.map_singleton, List.map_singleton, hspan, List.singleton_append]
      refine ⟨hpassed, ?_, hlater⟩
      rw [hspans]
      exact Claim.standsFor hline claims
  | kept isFree _ =>
    refine ⟨?_, hpassed, ?_, hlater⟩
    · rw [List.map_singleton, List.flatten_singleton, Stretch.span]
    · exact .kept
  | @found gap span _ free fenced matcher groups isFree ahead best =>
    have hmem := Candidate.mem_of_best? best
    have hmatcher := (mem_findsBefore hmem).1
    have hspan : span ≠ [] := text_ne_nil_of_mem_findsBefore hsolid hmem
    rw [← ahead] at hmem
    have hhit := hit?_of_mem_findsBefore hmem
    have hfound : Tiles matchers (behind ++ gap) (span :: spans)
        ((Stretch.found matcher ⟨(behind ++ gap).length, span, groups⟩).segment :: segments) := by
      refine ⟨hspan, ?_, by rwa [List.append_assoc]⟩
      exact standsFor_found _ hmatcher (hspans ▸ hhit)
    -- a gap makes a stretch of its own, but only if there is any
    by_cases hgap : gap = []
    · subst hgap
      rw [List.append_nil] at hfound
      simpa [Stretch.keeping, Stretch.span] using hfound
    · rw [Stretch.keeping, if_neg hgap]
      exact ⟨by simp [Stretch.span], hgap, .kept, hfound⟩

/-- The spans of strides are the text ahead, and their segments stand for them. -/
theorem Strides.tiles {matchers : List Matcher} {behind ahead : Text} {stretches : List Stretch}
    (hsolid : ∀ matcher ∈ matchers, matcher.pattern.Solid)
    (h : Strides matchers behind ahead stretches) :
    (stretches.map Stretch.span).flatten = ahead ∧
      Tiles matchers behind (stretches.map Stretch.span) (stretches.map Stretch.segment) := by
  induction h with
  | done behind => exact ⟨rfl, trivial⟩
  | stride hpassed first _ ih =>
    obtain ⟨hflatten, htiles⟩ := first.tiles hsolid hpassed ih.1 ih.2
    rw [List.map_append, List.map_append, List.flatten_append, hflatten, ih.1]
    exact ⟨rfl, htiles⟩

/-! ## Neighbours -/

/-- Two segments are not both kept. -/
def Segment.Apart (segment other : Segment) : Prop :=
  ¬ (segment.kind = .kept ∧ other.kind = .kept)

/-- A claim that begins at the position is handled at once. -/
theorem Stride.eq_claimed {matchers : List Matcher} {behind passed rest : Text}
    {made : List Stretch} {claim : Claim} (h : Stride matchers behind passed rest made)
    (hends : behind.endsLine = true)
    (hclaim : Claim.ofLine? (lineMatchers matchers)
      ⟨behind.length, (passed ++ rest).firstLine⟩ = some claim) :
    made = [.claimed claim] := by
  cases h with
  | claimed _ line claims =>
    rw [line, claims, Option.some.injEq] at hclaim
    rw [hclaim]
  | kept isFree _ => exact absurd isFree (Free.not_of_claim hends hclaim rfl)
  | found isFree ahead _ =>
    exact absurd isFree (Free.not_of_claim hends hclaim (by rw [← ahead]))

/-- What is kept up to a limit has the end of the source or a claimed line behind it. -/
theorem Strides.head_of_fence {matchers : List Matcher} {behind free fenced : Text}
    {stretches : List Stretch} (hfree : Free matchers behind free fenced)
    (h : Strides matchers (behind ++ free) fenced stretches) :
    ∀ stretch ∈ stretches.head?, stretch.segment.kind ≠ .kept := by
  cases h with
  | done => simp
  | @stride _ passed rest made later hpassed first _ =>
    have hne : passed ++ rest ≠ [] := List.append_ne_nil_of_left_ne_nil hpassed rest
    obtain ⟨hends, claim, hclaim⟩ := hfree.fence.resolve_left hne
    rw [first.eq_claimed hends hclaim]
    intro stretch hstretch
    have heq : Stretch.claimed claim = stretch := by simpa using hstretch
    rw [← heq, Stretch.segment, Claim.kind_segment]
    exact claim.matcher.kind_ne_kept

/-- No two neighbours are both kept. -/
theorem Strides.isChain {matchers : List Matcher} {behind ahead : Text} {stretches : List Stretch}
    (h : Strides matchers behind ahead stretches) :
    (stretches.map Stretch.segment).IsChain Segment.Apart := by
  induction h with
  | done behind => exact .nil
  | @stride behind _ _ _ _ hpassed first others ih =>
    rw [List.map_append]
    cases first with
    | @claimed _ _ claim _ _ _ =>
      refine .append (.singleton _) ih ?_
      intro segment hsegment other _ hkept
      have heq : (Stretch.claimed claim).segment = segment := by simpa using hsegment
      rw [← heq, Stretch.segment, Claim.kind_segment] at hkept
      exact claim.matcher.kind_ne_kept hkept.1
    | kept isFree _ =>
      -- the only place where two kept stretches could meet is a fence
      refine .append (.singleton _) ih ?_
      intro segment _ other hother hkept
      rw [List.head?_map, Option.mem_def, Option.map_eq_some_iff] at hother
      obtain ⟨stretch, hstretch, rfl⟩ := hother
      exact others.head_of_fence isFree stretch hstretch hkept.2
    | @found gap span _ _ _ matcher groups _ _ _ =>
      have hkind := matcher.kind_ne_kept
      refine .append ?_ ih ?_
      · rw [Stretch.keeping]
        split
        · exact .singleton _
        · exact .cons_cons (fun hkept => hkind hkept.2) (.singleton _)
      · intro segment hsegment other _ hkept
        rw [List.map_append, List.map_singleton, List.getLast?_concat] at hsegment
        have heq : (Stretch.found matcher ⟨(behind ++ gap).length, span, groups⟩).segment
            = segment := by simpa using hsegment
        rw [← heq] at hkept
        exact hkind hkept.1

/-! ## Counters -/

namespace Result

variable (segments : List Segment) (skipped : List Rule)

/-- A result holds the segments that the sweep made. -/
theorem segments_assemble : (assemble segments skipped).segments = segments := by
  induction segments with
  | nil => rfl
  | cons segment segments ih =>
    rw [assemble] at ih ⊢
    rw [List.foldr_cons, count]
    split <;> simp [ih]

/-- The counter for the segments of a kind; those that are kept are not counted. -/
def counter (result : Result) : SegmentKind → Nat
  | .kept => 0
  | .added => result.matchCount
  | .replaced => result.replaceCount

/-- **The counter for a kind counts the segments of that kind.** -/
theorem counter_assemble {kind : SegmentKind} (h : kind ≠ .kept) :
    (assemble segments skipped).counter kind = segments.countP (·.kind = kind) := by
  induction segments with
  | nil => cases kind <;> rfl
  | cons segment segments ih =>
    rw [assemble] at ih ⊢
    rw [List.foldr_cons, count, List.countP_cons, ← ih]
    cases kind with
    | kept => exact absurd rfl h
    | added => cases segment.kind <;> rfl
    | replaced => cases segment.kind <;> rfl

/-- The counters of a result count the segments that were marked and those that were replaced. -/
theorem counts_assemble :
    (assemble segments skipped).matchCount = segments.countP (·.kind = .added) ∧
      (assemble segments skipped).replaceCount = segments.countP (·.kind = .replaced) := by
  have hadded : SegmentKind.added ≠ .kept := by simp
  have hreplaced : SegmentKind.replaced ≠ .kept := by simp
  exact ⟨counter_assemble segments skipped hadded, counter_assemble segments skipped hreplaced⟩

/-- A result holds the rules that were skipped. -/
theorem skipped_assemble : (assemble segments skipped).skipped = skipped := by
  induction segments with
  | nil => rfl
  | cons segment segments ih =>
    rw [assemble] at ih ⊢
    rw [List.foldr_cons, count]
    split <;> exact ih

end Result

/-! ## The partition -/

/-- The segments of a sweep stand one by one for the spans of the stretches, which are together
the source. -/
theorem tiles_sweep {matchers : List Matcher}
    (hsolid : ∀ matcher ∈ matchers, matcher.pattern.Solid) (source : Text) :
    ((cut matchers source).map Stretch.span).flatten = source ∧
      Tiles matchers [] ((cut matchers source).map Stretch.span) (sweep matchers source) := by
  rw [sweep_eq_map_segment]
  exact (strides_cut hsolid source).tiles hsolid

/-- **A sweep partitions the source.**  Its segments stand one by one for spans that are
not empty, that follow one another, and that together are the source.  No two neighbours
are both kept, and the counters of the result count the segments of their kind. -/
theorem sweep_tiles {rules : List Rule} {matchers : List Matcher}
    (h : rules.mapM Matcher.ofRule = .ok matchers) (source : Text) (skipped : List Rule) :
    (∃ spans : List Text, spans.flatten = source ∧
      Tiles matchers [] spans (sweep matchers source)) ∧
    (sweep matchers source).IsChain Segment.Apart ∧
    (Result.assemble (sweep matchers source) skipped).segments = sweep matchers source ∧
    (Result.assemble (sweep matchers source) skipped).matchCount
      = (sweep matchers source).countP (·.kind = .added) ∧
    (Result.assemble (sweep matchers source) skipped).replaceCount
      = (sweep matchers source).countP (·.kind = .replaced) := by
  have hsolid := Matcher.solid_of_mapM_ofRule h
  refine ⟨⟨_, tiles_sweep hsolid source⟩, ?_, Result.segments_assemble _ _,
    Result.counts_assemble _ _⟩
  rw [sweep_eq_map_segment]
  exact (strides_cut hsolid source).isChain

/-- A find that reaches into a claimed line is dropped: the text in front of the line is
kept, and the line is replaced whole. -/
theorem sweep_tiles_dropped_find :
    ∃ matchers,
      [⟨"b\nX".toList, .text, .mark, 1, "b\nX".toList⟩,
        ⟨"[line]Y".toList, .line, .replace "Z".toList false, 2, "[line]Y///Z".toList⟩].mapM
          Matcher.ofRule = .ok matchers ∧
      sweep matchers "ab\nXY\n".toList
        = [⟨.kept, "ab\n".toList⟩, ⟨.replaced, "Z\n".toList⟩] ∧
      ∃ spans : List Text, spans.flatten = "ab\nXY\n".toList ∧
        Tiles matchers [] spans (sweep matchers "ab\nXY\n".toList) := by
  have h : [⟨"b\nX".toList, .text, .mark, 1, "b\nX".toList⟩,
      ⟨"[line]Y".toList, .line, .replace "Z".toList false, 2, "[line]Y///Z".toList⟩].mapM
        Matcher.ofRule
      = .ok
        [⟨⟨"b\nX".toList, .text, .mark, 1, "b\nX".toList⟩,
            ⟨[[.char 'b', .char '\n', .char 'X']]⟩, []⟩,
          ⟨⟨"[line]Y".toList, .line, .replace "Z".toList false, 2, "[line]Y///Z".toList⟩,
            ⟨[[.char 'Y']]⟩, [.literal "Z".toList]⟩] := by decide
  exact ⟨_, h, by decide, (sweep_tiles h "ab\nXY\n".toList []).1⟩

end RuleSweep
