/-
# Newlines

A sweep makes no newline and loses none, but for those of the lines that it is asked to
delete: `evaluate_keepsLines`.  What is put in the place of a find inside a line holds no
newline, and a line that is replaced keeps its own terminator, also if nothing else is left
of it (`Stretch.KeepsLines`).  The stretches of a sweep hold all claims on the lines of the
source, in order (`claims_cut`), so the newlines that are lost can be counted line by line.
-/
import RuleSweep.Proofs.Sweep.Junction
import RuleSweep.Proofs.Template.Newlines

namespace RuleSweep

/-! ## The newline of a line -/

namespace Text

/-- A line holds one newline if it ends in one, and otherwise none. -/
theorem count_newline {line : Text} (h : '\n' ∉ line.dropLast) :
    line.count '\n' = if line.getLast? = some '\n' then 1 else 0 := by
  cases line using List.reverseRecOn with
  | nil => rfl
  | append_singleton front c =>
    rw [List.dropLast_concat] at h
    rw [List.count_append, List.count_eq_zero_of_not_mem h, List.getLast?_concat,
      List.count_singleton]
    simp

/-- The terminator at the end of a text holds one newline if the text ends in one, and
otherwise none. -/
theorem count_newline_terminator (t : Text) :
    t.terminator.count '\n' = if t.getLast? = some '\n' then 1 else 0 := by
  simp only [terminator, List.isSuffixOf_iff_suffix, List.singleton_suffix_iff_getLast?_eq_some]
  by_cases hreturn : ['\r', '\n'] <:+ t
  · have hlast : t.getLast? = some '\n' :=
      List.singleton_suffix_iff_getLast?_eq_some.mp (List.IsSuffix.trans ⟨['\r'], rfl⟩ hreturn)
    rw [if_pos hreturn, if_pos hlast]
    rfl
  · rw [if_neg hreturn]
    split <;> rfl

end Text

/-! ## The claims of a sweep -/

/-- The first matcher for lines whose pattern fits inside a line. -/
def claimant? (matchers : List Matcher) (line : Text) : Option Matcher :=
  (lineMatchers matchers).find? fun matcher => (matcher.pattern.find? line).isSome

/-- The claim on a line is that of the first matcher whose pattern fits inside. -/
theorem Claim.map_matcher_ofLine? (matchers : List Matcher) (line : Line) :
    (ofLine? matchers line).map Claim.matcher
      = matchers.find? fun matcher => (matcher.pattern.find? line.text).isSome := by
  induction matchers with
  | nil => rfl
  | cons matcher matchers ih =>
    rw [ofLine?, List.findSome?_cons, List.find?_cons]
    cases hfind : matcher.pattern.find? line.text with
    | none => exact ih
    | some found => rfl

/-- The claim of a claimed line. -/
def Stretch.claim? : Stretch → Option Claim
  | .claimed claim => some claim
  | _ => none

section Claims

variable {matchers : List Matcher} {behind passed rest ahead source : Text}
  {made stretches : List Stretch}

/-- A stride handles the claims on the lines that begin in the text that it passes. -/
theorem Stride.claims (h : Stride matchers behind passed rest made) (hpassed : passed ≠ []) :
    Claim.ahead (lineMatchers matchers) behind (passed ++ rest)
      = made.filterMap Stretch.claim?
        ++ Claim.ahead (lineMatchers matchers) (behind ++ passed) rest := by
  cases h with
  | claimed begins line claims =>
    have hne : passed ++ rest ≠ [] := List.append_ne_nil_of_left_ne_nil hpassed rest
    rw [Claim.ahead, Line.ahead_eq_cons begins hne, line, List.drop_left,
      List.filterMap_cons_some claims]
    rfl
  | kept isFree _ => exact Claim.ahead_append isFree.unclaimed
  | @found gap span _ free fenced _ _ isFree ahead best =>
    have hunclaimed := isFree.unclaimed_of_le ahead (length_le_of_best? best)
    rw [Claim.ahead_append hunclaimed]
    unfold Stretch.keeping
    split <;> rfl

/-- The strides of a sweep handle the claims ahead, in order. -/
theorem Strides.claims (h : Strides matchers behind ahead stretches) :
    stretches.filterMap Stretch.claim? = Claim.ahead (lineMatchers matchers) behind ahead := by
  induction h with
  | done behind => rfl
  | stride hpassed first _ ih => rw [first.claims hpassed, List.filterMap_append, ih]

/-- **The stretches of a sweep hold the claims on the lines of the source, in order.** -/
theorem claims_cut (hsolid : ∀ matcher ∈ matchers, matcher.pattern.Solid) (source : Text) :
    (cut matchers source).filterMap Stretch.claim?
      = Claim.ofSource (lineMatchers matchers) source := by
  rw [(strides_cut hsolid source).claims, Claim.ofSource_eq_ahead]

/-- A find is one of a rule for text, whose pattern fits there. -/
theorem Strides.hit?_of_found (h : Strides matchers behind ahead stretches) {matcher : Matcher}
    {candidate : Candidate} (hmem : .found matcher candidate ∈ stretches) :
    matcher ∈ textMatchers matchers ∧ ∃ rest,
      matcher.pattern.hit? (candidate.text ++ rest)
        = some ⟨candidate.text.length, candidate.groups⟩ := by
  induction h with
  | done behind => exact absurd hmem List.not_mem_nil
  | @stride behind passed rest made later _ first _ ih =>
    obtain hmem | hmem := List.mem_append.mp hmem
    · cases first with
      | claimed _ _ _ => simp at hmem
      | kept _ _ => simp at hmem
      | @found gap span _ _ _ other groups _ ahead best =>
        have hbest := Candidate.mem_of_best? best
        have hnotKept : .found matcher candidate ∉ Stretch.keeping gap := by
          unfold Stretch.keeping
          split <;> simp
        obtain hmem | hmem := List.mem_append.mp hmem
        · exact absurd hmem hnotKept
        · rw [List.mem_singleton, Stretch.found.injEq] at hmem
          obtain ⟨rfl, rfl⟩ := hmem
          rw [← ahead] at hbest
          exact ⟨(mem_findsBefore hbest).1, rest, hit?_of_mem_findsBefore hbest⟩
    · exact ih hmem

end Claims

/-! ## Segments -/

/-- A rule that marks deletes nothing. -/
theorem Rule.deletes_of_marks {rule : Rule} (h : rule.replaces = false) :
    rule.deletes = false := by
  cases haction : rule.action with
  | mark => simp [deletes, haction]
  | replace _ _ => simp [replaces, haction] at h

namespace Claim

variable {claim : Claim}

/-- A claimed line that is marked stays as it is. -/
theorem segment_of_marks (h : claim.matcher.rule.replaces = false) :
    claim.segment = ⟨.added, claim.line.text⟩ := by
  simp [segment, Matcher.render, Matcher.kind, h]

/-- A claimed line that is deleted leaves nothing. -/
theorem segment_of_deletes (htemplate : claim.matcher.template = [])
    (h : claim.matcher.rule.deletes = true) : claim.segment = ⟨.replaced, []⟩ := by
  have hreplaces : claim.matcher.rule.replaces = true := by
    cases hmarks : claim.matcher.rule.replaces with
    | true => rfl
    | false => exact absurd (Rule.deletes_of_marks hmarks) (by simp [h])
  simp [segment, Matcher.render, Matcher.kind, Template.render, keepsTerminator, htemplate, h,
    hreplaces]

/-- A claimed line that is replaced by a content without newlines keeps its terminator. -/
theorem segment_of_replaces {content : Text}
    (hcontent : claim.matcher.template.render claim.line.text claim.groups = content)
    (hnewline : '\n' ∉ content) (h : claim.matcher.rule.replaces = true)
    (hdeletes : claim.matcher.rule.deletes = false) :
    claim.segment = ⟨.replaced, content ++ claim.line.text.terminator⟩ := by
  have hsuffix : ['\n'].isSuffixOf content = false := by
    rw [Bool.eq_false_iff, ne_eq, List.isSuffixOf_iff_suffix]
    exact fun hsuffix => hnewline (hsuffix.subset List.mem_cons_self)
  simp [segment, Matcher.render, Matcher.kind, keepsTerminator, hcontent, hsuffix, h, hdeletes]

end Claim

/-- A stretch whose segment does not upset the lines of the source. -/
inductive Stretch.KeepsLines (matchers : List Matcher) (source : Text) : Stretch → Prop
  /-- Text that is kept stays as it is. -/
  | kept (text : Text) : KeepsLines matchers source (.kept text)
  /-- A find of a rule for text lies inside a line, and what is put in its place holds no
  newline. -/
  | found {matcher : Matcher} {candidate : Candidate} (mem : matcher ∈ textMatchers matchers)
      (inside : '\n' ∉ candidate.text)
      (newline : '\n' ∉ (Stretch.found matcher candidate).segment.text) :
      KeepsLines matchers source (.found matcher candidate)
  /-- A line that is marked stays as it is. -/
  | marked {claim : Claim} (line : claim.line ∈ Line.ofSource source)
      (claimant : claimant? matchers claim.line.text = some claim.matcher)
      (marks : claim.matcher.rule.replaces = false)
      (segment : claim.segment = ⟨.added, claim.line.text⟩) :
      KeepsLines matchers source (.claimed claim)
  /-- Of a line that is deleted nothing is left. -/
  | deleted {claim : Claim} (line : claim.line ∈ Line.ofSource source)
      (claimant : claimant? matchers claim.line.text = some claim.matcher)
      (deletes : claim.matcher.rule.deletes = true)
      (segment : claim.segment = ⟨.replaced, []⟩) :
      KeepsLines matchers source (.claimed claim)
  /-- A line that is replaced keeps its own terminator, behind a content that holds no
  newline and may be empty. -/
  | replaced {claim : Claim} {content : Text} (line : claim.line ∈ Line.ofSource source)
      (claimant : claimant? matchers claim.line.text = some claim.matcher)
      (replaces : claim.matcher.rule.replaces = true)
      (stays : claim.matcher.rule.deletes = false)
      (render : claim.matcher.template.render claim.line.text claim.groups = content)
      (newline : '\n' ∉ content)
      (segment : claim.segment = ⟨.replaced, content ++ claim.line.text.terminator⟩) :
      KeepsLines matchers source (.claimed claim)

section RuleLists

variable {list source : Text} {set : RuleSet}

/-- The line of a claim holds a newline at most at its end. -/
theorem Line.newline_notMem_dropLast {line : Line} (h : line ∈ Line.ofSource source) :
    '\n' ∉ line.text.dropLast :=
  (Line.isLine_of_mem h).newline

/-- A find of a rule for text does not upset the lines. -/
theorem keepsLines_found (h : RuleSet.ofList list = .ok set) {matcher : Matcher}
    {candidate : Candidate} {rest : Text} (hmatcher : matcher ∈ textMatchers set.matchers)
    (hhit : matcher.pattern.hit? (candidate.text ++ rest)
      = some ⟨candidate.text.length, candidate.groups⟩) :
    (Stretch.found matcher candidate).KeepsLines set.matchers source := by
  have hset : matcher ∈ set.matchers := List.mem_of_mem_filter hmatcher
  have hinside : '\n' ∉ candidate.text := by
    have htake := Pattern.newline_notMem_take_hit (RuleSet.withinLine_of_ofList h matcher hset) hhit
    rwa [List.take_left] at htake
  refine .found hmatcher hinside ?_
  rw [Stretch.segment, Matcher.render]
  split
  · have hdropLast : '\n' ∉ candidate.text.dropLast := fun hmem =>
      hinside (List.dropLast_subset _ hmem)
    exact (RuleSet.withinLine_template h hset).newline_notMem_render hdropLast
      (Pattern.newline_notMem_of_mem_groups hhit)
  · exact hinside

/-- A claimed line does not upset the lines, whatever its rule does with it. -/
theorem keepsLines_claimed (h : RuleSet.ofList list = .ok set) {claim : Claim}
    (hclaim : claim ∈ Claim.ofSource (lineMatchers set.matchers) source) :
    (Stretch.claimed claim).KeepsLines set.matchers source := by
  obtain ⟨line, hofSource, hofLine⟩ := List.mem_filterMap.mp hclaim
  obtain ⟨rfl, hmatcher, found, hfound, hgroups⟩ := Claim.ofLine?_eq_some hofLine
  have hset : claim.matcher ∈ set.matchers := List.mem_of_mem_filter hmatcher
  have hclaimant : claimant? set.matchers claim.line.text = some claim.matcher := by
    rw [claimant?, ← Claim.map_matcher_ofLine?, hofLine]
    rfl
  cases hreplaces : claim.matcher.rule.replaces with
  | false => exact .marked hofSource hclaimant hreplaces (Claim.segment_of_marks hreplaces)
  | true =>
    cases hdeletes : claim.matcher.rule.deletes with
    | true =>
      have htemplate := RuleSet.template_eq_nil h hset hdeletes
      exact .deleted hofSource hclaimant hdeletes (Claim.segment_of_deletes htemplate hdeletes)
    | false =>
      have hhit := (Pattern.find?_eq_some_iff.mp hfound).1
      have hcaptures := Pattern.newline_notMem_of_mem_groups hhit
      rw [← hgroups] at hcaptures
      have hcontent := (RuleSet.withinLine_template h hset).newline_notMem_render
        (Line.newline_notMem_dropLast hofSource) hcaptures
      exact .replaced hofSource hclaimant hreplaces hdeletes rfl hcontent
        (Claim.segment_of_replaces rfl hcontent hreplaces hdeletes)

/-- No stretch of a sweep with a rule list upsets the lines. -/
theorem keepsLines_of_mem_cut (h : RuleSet.ofList list = .ok set) {stretch : Stretch}
    (hmem : stretch ∈ cut set.matchers source) : stretch.KeepsLines set.matchers source := by
  have hsolid := RuleSet.solid_of_ofList h
  cases stretch with
  | kept text => exact .kept text
  | found matcher candidate =>
    obtain ⟨hmatcher, rest, hhit⟩ := (strides_cut hsolid source).hit?_of_found hmem
    exact keepsLines_found h hmatcher hhit
  | claimed claim =>
    refine keepsLines_claimed h ?_
    rw [← claims_cut hsolid, List.mem_filterMap]
    exact ⟨_, hmem, rfl⟩

end RuleLists

/-! ## Counting -/

/-- A line that ends in a newline and is deleted with it. -/
def losesNewline (matchers : List Matcher) (line : Text) : Bool :=
  line.getLast? = some '\n' && (claimant? matchers line).any (·.rule.deletes)

/-- A claim on a line that ends in a newline and is deleted with it. -/
def Claim.losesNewline (claim : Claim) : Bool :=
  claim.line.text.getLast? = some '\n' && claim.matcher.rule.deletes

/-- A line loses its newline if its claim says so. -/
theorem Claim.losesNewline_ofLine? (matchers : List Matcher) (line : Line) :
    ((ofLine? (lineMatchers matchers) line).map losesNewline).getD false
      = RuleSweep.losesNewline matchers line.text := by
  have hclaimant := map_matcher_ofLine? (lineMatchers matchers) line
  rw [RuleSweep.losesNewline, claimant?, ← hclaimant]
  cases hclaim : ofLine? (lineMatchers matchers) line with
  | none => simp
  | some claim => simp [losesNewline, (ofLine?_eq_some hclaim).1]

section Counting

variable {matchers : List Matcher} {source : Text} {stretch : Stretch} {stretches : List Stretch}

/-- A segment holds as many newlines as its stretch, or one less if it is lost. -/
theorem Stretch.KeepsLines.count_newline (h : stretch.KeepsLines matchers source) :
    stretch.segment.text.count '\n' + stretch.claim?.toList.countP Claim.losesNewline
      = stretch.span.count '\n' := by
  cases h with
  | kept text => rfl
  | found _ inside newline =>
    rw [List.count_eq_zero_of_not_mem newline, Stretch.span, List.count_eq_zero_of_not_mem inside]
    rfl
  | @marked claim line _ marks segment =>
    have hkeeps : claim.losesNewline = false := by
      rw [Claim.losesNewline, Rule.deletes_of_marks marks, Bool.and_false]
    simp [Stretch.segment, Stretch.span, Stretch.claim?, segment, hkeeps]
  | @deleted claim line _ deletes segment =>
    have hcount := Text.count_newline (Line.newline_notMem_dropLast line)
    have hloses : claim.losesNewline = decide (claim.line.text.getLast? = some '\n') := by
      rw [Claim.losesNewline, deletes, Bool.and_true]
    simp [Stretch.segment, Stretch.span, Stretch.claim?, segment, hcount, hloses,
      List.countP_singleton]
  | @replaced claim content line _ _ stays _ newline segment =>
    have hcount := Text.count_newline (Line.newline_notMem_dropLast line)
    have hterminator := Text.count_newline_terminator claim.line.text
    have hkeeps : claim.losesNewline = false := by
      rw [Claim.losesNewline, stays, Bool.and_false]
    simp [Stretch.segment, Stretch.span, Stretch.claim?, segment, hkeeps, hcount, hterminator,
      List.count_eq_zero_of_not_mem newline]

/-- The segments hold as many newlines as their stretches, less those that are lost. -/
theorem count_newline_textOf (h : ∀ stretch ∈ stretches, stretch.KeepsLines matchers source) :
    (Segment.textOf (stretches.map Stretch.segment)).count '\n'
        + (stretches.filterMap Stretch.claim?).countP Claim.losesNewline
      = (stretches.map Stretch.span).flatten.count '\n' := by
  induction stretches with
  | nil => rfl
  | cons stretch stretches ih =>
    rw [List.forall_mem_cons] at h
    have hfirst := h.1.count_newline
    have hrest := ih h.2
    have hclaims : (stretch :: stretches).filterMap Stretch.claim?
        = stretch.claim?.toList ++ stretches.filterMap Stretch.claim? := by
      cases stretch <;> rfl
    rw [Segment.textOf] at hrest ⊢
    rw [hclaims, List.map_cons, List.map_cons, List.flatMap_cons, List.flatten_cons,
      List.count_append, List.count_append, List.countP_append]
    omega

/-- The newlines that a sweep loses are those of the lines that lose theirs. -/
theorem countP_losesNewline (hsolid : ∀ matcher ∈ matchers, matcher.pattern.Solid) :
    ((cut matchers source).filterMap Stretch.claim?).countP Claim.losesNewline
      = source.lines.countP (losesNewline matchers) := by
  rw [claims_cut hsolid, Claim.ofSource, List.countP_filterMap, ← Line.map_text_ofSource,
    List.countP_map]
  refine List.countP_congr fun line _ => ?_
  rw [Claim.losesNewline_ofLine?]
  rfl

end Counting

/-! ## Evaluations -/

/-- **An evaluation neither makes newlines nor loses any but those of deleted lines.**  No
segment upsets the lines of the source, and the result holds as many newlines as the source,
less one for each line that ends in one and is claimed by a rule that deletes. -/
theorem evaluate_keepsLines {list : Text} {set : RuleSet} (h : RuleSet.ofList list = .ok set)
    (source : Text) :
    ∃ result, evaluate source list = .ok result ∧
      result.segments = (cut set.matchers source).map Stretch.segment ∧
      (∀ stretch ∈ cut set.matchers source, stretch.KeepsLines set.matchers source) ∧
      result.text.count '\n' + source.lines.countP (losesNewline set.matchers)
        = source.count '\n' := by
  have hsolid := RuleSet.solid_of_ofList h
  have hkeeps : ∀ stretch ∈ cut set.matchers source, stretch.KeepsLines set.matchers source :=
    fun stretch hstretch => keepsLines_of_mem_cut h hstretch
  have hspans := ((strides_cut hsolid source).tiles hsolid).1
  have hcount := count_newline_textOf hkeeps
  rw [countP_losesNewline hsolid, hspans] at hcount
  obtain ⟨result, hresult, hsegments, -⟩ := evaluate_of_ofList h source
  rw [sweep_eq_map_segment] at hsegments
  refine ⟨result, hresult, hsegments, hkeeps, ?_⟩
  rw [Result.text, hsegments]
  exact hcount

/-- A line that is deleted loses its terminator, a line that is emptied keeps it, and the
last line has none to lose. -/
theorem evaluate_keepsLines_terminators :
    ∃ set result, RuleSet.ofList "[line]x///[del]\n[line]y///\n[num]///$1$1".toList = .ok set ∧
      evaluate "x1\r\ny\r\n7\nx".toList "[line]x///[del]\n[line]y///\n[num]///$1$1".toList
        = .ok result ∧
      result.segments
        = [⟨.replaced, []⟩, ⟨.replaced, "\r\n".toList⟩, ⟨.replaced, "77".toList⟩,
            ⟨.kept, "\n".toList⟩, ⟨.replaced, []⟩] ∧
      (Text.lines "x1\r\ny\r\n7\nx".toList).countP (losesNewline set.matchers) = 1 := by
  have hsegments :
      (evaluate "x1\r\ny\r\n7\nx".toList
          "[line]x///[del]\n[line]y///\n[num]///$1$1".toList).map Result.segments
        = .ok [⟨.replaced, []⟩, ⟨.replaced, "\r\n".toList⟩, ⟨.replaced, "77".toList⟩,
            ⟨.kept, "\n".toList⟩, ⟨.replaced, []⟩] := by decide
  cases hset : RuleSet.ofList "[line]x///[del]\n[line]y///\n[num]///$1$1".toList with
  | error e =>
    have hok : (RuleSet.ofList "[line]x///[del]\n[line]y///\n[num]///$1$1".toList).isOk = true := by
      decide
    rw [hset] at hok
    exact absurd hok Bool.false_ne_true
  | ok set =>
    obtain ⟨result, hresult, -, -, hcount⟩ := evaluate_keepsLines hset "x1\r\ny\r\n7\nx".toList
    rw [hresult, Except.map, Except.ok.injEq] at hsegments
    refine ⟨set, result, rfl, hresult, hsegments, ?_⟩
    rw [Result.text, hsegments] at hcount
    exact Nat.add_left_cancel (n := 2) hcount

end RuleSweep
