/-
# Rules without a say

A rule can be taken out of a list without a trace in the sweep of a source if it is dead there
(`Rule.Dead`): what it searches for is nowhere in the source, or inside none of its lines if it
looks at lines, or an earlier rule searches for the same in the same scope, whatever the two
put in its place.

The best find of rules that stand one behind the other is the better of the best finds of both
parts (`bestBefore?_append`), and a dead rule adds nothing to the rules in front of it.  So
two sweeps, one with the rule and one without it, go side by side (`Walk.Twin`): each step makes
the same stretches and leads to the same place (`Walk.Twin.step`), though they remember the
finds of different rules.  The main statement is `sweep_of_dead`.
-/
import RuleSweep.Proofs.RuleList
import RuleSweep.Proofs.Sweep.Newlines

namespace RuleSweep

/-! ## The better of two finds -/

namespace Candidate

/-- To beat is transitive. -/
theorem beats_trans {first second third : Candidate} (h : third.beats second = true)
    (h' : second.beats first = true) : third.beats first = true := by
  simp only [beats, Bool.or_eq_true, Bool.and_eq_true, decide_eq_true_eq] at h h' ⊢
  omega

/-- Not to beat is transitive, too. -/
theorem not_beats_trans {first second third : Candidate} (h : third.beats second = false)
    (h' : second.beats first = false) : third.beats first = false := by
  rw [beats_eq_false_iff] at h h' ⊢
  omega

/-- The better of two finds, if there are any: the earlier rule's, unless the other beats it. -/
def better : Option (Matcher × Candidate) → Option (Matcher × Candidate) →
    Option (Matcher × Candidate)
  | none, later => later
  | some entry, none => some entry
  | some entry, some later => if later.2.beats entry.2 then some later else some entry

/-- A find is better than none. -/
theorem better_none (first : Option (Matcher × Candidate)) : better first none = first := by
  cases first <;> rfl

/-- Of three finds the best one does not depend on which two are compared first. -/
theorem better_assoc (first second third : Option (Matcher × Candidate)) :
    better (better first second) third = better first (better second third) := by
  cases first with
  | none => rfl
  | some first =>
    cases second with
    | none => rfl
    | some second =>
      cases third with
      | none => rw [better_none, better_none]
      | some third =>
        by_cases hsecond : second.2.beats first.2 = true
        · by_cases hthird : third.2.beats second.2 = true
          · have hbeats := beats_trans hthird hsecond
            simp [better, hsecond, hthird, hbeats]
          · simp [better, hsecond, hthird]
        · by_cases hthird : third.2.beats second.2 = true
          · simp [better, hsecond, hthird]
          · rw [Bool.not_eq_true] at hsecond hthird
            have hbeats := not_beats_trans hthird hsecond
            simp [better, hsecond, hthird, hbeats]

/-- The best of a find and others is the better of it and their best. -/
theorem best?_cons (entry : Matcher × Candidate) (others : List (Matcher × Candidate)) :
    best? (entry :: others) = better (some entry) (best? others) := by
  rw [best?]
  cases best? others <;> rfl

/-- **The best of two lists of finds is the better of their best ones.** -/
theorem best?_append (front back : List (Matcher × Candidate)) :
    best? (front ++ back) = better (best? front) (best? back) := by
  induction front with
  | nil => rfl
  | cons entry front ih => rw [List.cons_append, best?_cons, best?_cons, ih, better_assoc]

end Candidate

/-- The best find at or behind a head that ends before a limit. -/
def bestBefore? (head : Head) (limit : Nat) (matchers : List Matcher) :
    Option (Matcher × Candidate) :=
  Candidate.best? ((finds head matchers).filter (·.2.fitsBefore limit))

/-- **The best find of matchers that stand one behind the other** is the better of the best
finds of both parts. -/
theorem bestBefore?_append (head : Head) (limit : Nat) (front back : List Matcher) :
    bestBefore? head limit (front ++ back)
      = Candidate.better (bestBefore? head limit front) (bestBefore? head limit back) := by
  rw [bestBefore?, finds, List.filterMap_append, List.filter_append, Candidate.best?_append]
  rfl

/-! ## Sweeps side by side -/

/-- Two lists of matchers have the same best find, wherever the sweep of a source may be. -/
def SameBest (source : Text) (matchers others : List Matcher) : Prop :=
  ∀ head limit, head.ahead <:+ source →
    bestBefore? head limit others = bestBefore? head limit matchers

namespace Walk

/-- What a step towards a limit does, if all that is remembered is right. -/
theorem seek_eq_of_right {walk : Walk} (h : Memo.Right walk.head walk.memo) (limit : Nat) :
    walk.seek limit =
      match bestBefore? walk.head limit (walk.memo.map Prod.fst) with
      | none =>
        (walk.keep (limit - walk.head.position),
          { walk with head := walk.head.advance (limit - walk.head.position),
                      memo := (Memo.askAll walk.head walk.memo).2 })
      | some (matcher, candidate) =>
        (walk.keep (candidate.start - walk.head.position) ++ [.found matcher candidate],
          { walk with head := walk.head.advance (candidate.stop - walk.head.position),
                      memo := (Memo.askAll walk.head walk.memo).2 }) := by
  rw [bestBefore?, ← Memo.askAll_eq_finds h]
  rfl

/-- Two sweeps of a source are at the same place, with the same claims ahead, and the best finds
of their matchers are the same from here on. -/
structure Twin (source : Text) (walk other : Walk) : Prop where
  /-- The size is the same. -/
  size : other.size = walk.size
  /-- The place is the same. -/
  head : other.head = walk.head
  /-- The claims ahead are the same. -/
  claims : other.claims = walk.claims
  /-- The place lies in the source. -/
  ahead : walk.head.ahead <:+ source
  /-- The best finds are the same. -/
  best : SameBest source (walk.memo.map Prod.fst) (other.memo.map Prod.fst)
  /-- What the one remembers is right. -/
  memo : Memo.Right walk.head walk.memo
  /-- What the other remembers is right. -/
  otherMemo : Memo.Right walk.head other.memo

namespace Twin

variable {source : Text} {walk other : Walk} (h : Twin source walk other)
include h

/-- Twins that move on by the same number of characters are twins, whatever they remember, as
long as it is right and of the same matchers as before. -/
theorem move (n : Nat) (claims : List Claim) {memo memo' : Memo}
    (hfst : memo.map Prod.fst = walk.memo.map Prod.fst)
    (hfst' : memo'.map Prod.fst = other.memo.map Prod.fst)
    (hmemo : Memo.Right walk.head memo) (hmemo' : Memo.Right walk.head memo') :
    Twin source ⟨walk.size, walk.head.advance n, claims, memo⟩
      ⟨other.size, other.head.advance n, claims, memo'⟩ where
  size := h.size
  head := congrArg (Head.advance · n) h.head
  claims := rfl
  ahead := (List.drop_suffix n walk.head.ahead).trans h.ahead
  best := by
    rw [hfst, hfst']
    exact h.best
  memo := hmemo.advance n
  otherMemo := hmemo'.advance n

/-- A step towards a limit makes the same stretches, and then the sweeps are twins again. -/
theorem seek (limit : Nat) :
    (other.seek limit).1 = (walk.seek limit).1 ∧
      Twin source (walk.seek limit).2 (other.seek limit).2 := by
  have hkeep : ∀ n, other.keep n = walk.keep n := by
    intro n
    rw [keep, keep, h.head]
  have hotherMemo : Memo.Right other.head other.memo := h.head ▸ h.otherMemo
  have hbest : bestBefore? other.head limit (other.memo.map Prod.fst)
      = bestBefore? walk.head limit (walk.memo.map Prod.fst) := by
    rw [h.head]
    exact h.best walk.head limit h.ahead
  have hmove : ∀ n, Twin source
      { walk with head := walk.head.advance n, memo := (Memo.askAll walk.head walk.memo).2 }
      { other with head := other.head.advance n,
                   memo := (Memo.askAll other.head other.memo).2 } := by
    intro n
    rw [h.claims, h.head]
    have hmoved := h.move n walk.claims (Memo.map_fst_askAll walk.head walk.memo)
      (Memo.map_fst_askAll walk.head other.memo) (Memo.right_askAll h.memo)
      (Memo.right_askAll h.otherMemo)
    rwa [h.head] at hmoved
  rw [seek_eq_of_right h.memo, seek_eq_of_right hotherMemo, hbest, h.head]
  rw [h.head] at hmove
  cases bestBefore? walk.head limit (walk.memo.map Prod.fst) with
  | none => exact ⟨hkeep _, hmove _⟩
  | some entry =>
    refine ⟨?_, hmove _⟩
    simp only [hkeep]

/-- **Twins make the same stretches in a step, and then they are twins again.** -/
theorem step : other.step.1 = walk.step.1 ∧ Twin source walk.step.2 other.step.2 := by
  rw [Walk.step, Walk.step, h.claims]
  cases hclaims : walk.claims with
  | nil =>
    simp only
    rw [h.size]
    exact h.seek walk.size
  | cons claim later =>
    simp only
    rw [h.head]
    split
    · refine ⟨rfl, ?_⟩
      have hmoved := h.move claim.line.text.length later rfl rfl h.memo h.otherMemo
      rwa [h.head] at hmoved
    · exact h.seek claim.line.start

/-- Twins make the same stretches up to the end. -/
theorem stretches (limit : Nat) : stretches limit other = stretches limit walk := by
  induction limit generalizing walk other with
  | zero => rfl
  | succ limit ih =>
    obtain ⟨hmade, htwin⟩ := h.step
    rw [stretches_succ, stretches_succ, h.size, h.head, hmade, ih htwin]

end Twin

end Walk

/-- **Matchers that claim the same lines and have the same best finds cut a source alike.** -/
theorem cut_congr {source : Text} {matchers others : List Matcher}
    (hclaims : ∀ line ∈ Line.ofSource source, Claim.ofLine? (lineMatchers others) line
      = Claim.ofLine? (lineMatchers matchers) line)
    (hbest : SameBest source (textMatchers matchers) (textMatchers others)) :
    cut others source = cut matchers source := by
  have htwin : Walk.Twin source (Walk.start matchers source) (Walk.start others source) :=
    { size := rfl
      head := rfl
      claims := List.filterMap_congr hclaims
      ahead := List.suffix_rfl
      best := by
        rw [Walk.start, Walk.start, Memo.map_fst_fresh, Memo.map_fst_fresh]
        exact hbest
      memo := Memo.right_fresh _ _
      otherMemo := Memo.right_fresh _ _ }
  exact htwin.stretches source.length

/-! ## Matchers without a say -/

/-- Matchers behind others that have no say in the sweep of a source: in the text they find
nothing that is better than what the others find, and they claim no line that the others do not
claim. -/
structure Matcher.Silent (source : Text) (front : List Matcher) (matcher : Matcher) : Prop where
  /-- If it looks at the text, it never has the best find. -/
  text : matcher.rule.scope = .text → ∀ head limit, head.ahead <:+ source →
    Candidate.better (bestBefore? head limit (textMatchers front))
      (bestBefore? head limit [matcher]) = bestBefore? head limit (textMatchers front)
  /-- If it looks at lines, it claims none that is not claimed already. -/
  line : matcher.rule.scope = .line → ∀ line ∈ Line.ofSource source,
    Claim.ofLine? (lineMatchers front) line = none → Claim.ofLine? [matcher] line = none

section Silent

variable {source : Text} {front : List Matcher} {matcher : Matcher}

/-- The matchers for text among matchers that stand one behind the other. -/
theorem textMatchers_append (front back : List Matcher) :
    textMatchers (front ++ back) = textMatchers front ++ textMatchers back :=
  List.filter_append front back

/-- The matchers for lines among matchers that stand one behind the other. -/
theorem lineMatchers_append (front back : List Matcher) :
    lineMatchers (front ++ back) = lineMatchers front ++ lineMatchers back :=
  List.filter_append front back

/-- The claim of matchers that stand one behind the other is that of the first part, if it has
one. -/
theorem Claim.ofLine?_append (front back : List Matcher) (line : Line) :
    ofLine? (front ++ back) line = (ofLine? front line).or (ofLine? back line) :=
  List.findSome?_append

/-- **A matcher without a say can be taken out.** -/
theorem Matcher.Silent.cut_eq (h : matcher.Silent source front) (back : List Matcher) :
    cut (front ++ back) source = cut (front ++ matcher :: back) source := by
  rw [← List.singleton_append (l := back)]
  refine cut_congr ?_ ?_
  · intro line hmem
    rw [lineMatchers_append, lineMatchers_append, lineMatchers_append, Claim.ofLine?_append,
      Claim.ofLine?_append, Claim.ofLine?_append]
    cases hscope : matcher.rule.scope with
    | text =>
      have hnil : lineMatchers [matcher] = [] := by simp [lineMatchers, hscope]
      rw [hnil]
      rfl
    | line =>
      have hsingle : lineMatchers [matcher] = [matcher] := by simp [lineMatchers, hscope]
      rw [hsingle]
      cases hfront : Claim.ofLine? (lineMatchers front) line with
      | some claim => rfl
      | none => rw [h.line hscope line hmem hfront, Option.none_or, Option.none_or]
  · intro head limit hahead
    rw [textMatchers_append, textMatchers_append, textMatchers_append, bestBefore?_append,
      bestBefore?_append, bestBefore?_append]
    cases hscope : matcher.rule.scope with
    | line =>
      have hnil : textMatchers [matcher] = [] := by simp [textMatchers, hscope]
      rw [hnil]
      rfl
    | text =>
      have hsingle : textMatchers [matcher] = [matcher] := by simp [textMatchers, hscope]
      rw [hsingle, ← Candidate.better_assoc, h.text hscope head limit hahead]

/-- A matcher has a best find only if it finds something. -/
theorem next?_of_bestBefore? {head : Head} {limit : Nat} {entry : Matcher × Candidate}
    (h : bestBefore? head limit [matcher] = some entry) :
    entry.1 = matcher ∧ Candidate.next? matcher.pattern head = some entry.2 ∧
      entry.2.fitsBefore limit = true := by
  obtain ⟨hmem, hfits⟩ := List.mem_filter.mp (Candidate.mem_of_best? h)
  obtain ⟨hmatcher, hnext⟩ := mem_finds.mp hmem
  rw [List.mem_singleton] at hmatcher
  rw [hmatcher] at hnext
  exact ⟨hmatcher, hnext, hfits⟩

/-- A matcher whose pattern fits nowhere in the source has no best find there. -/
theorem bestBefore?_eq_none (h : matcher.pattern.find? source = none) {head : Head}
    (hahead : head.ahead <:+ source) (limit : Nat) : bestBefore? head limit [matcher] = none := by
  cases hbest : bestBefore? head limit [matcher] with
  | none => rfl
  | some entry =>
    have hnone : Candidate.next? matcher.pattern head = none := by
      rw [Pattern.next?_eq_none_iff]
      intro s
      rw [List.suffix_iff_eq_drop.mp hahead, List.drop_drop]
      exact Pattern.find?_eq_none_iff.mp h _
    rw [(next?_of_bestBefore? hbest).2.1] at hnone
    exact absurd hnone (by simp)

/-- A matcher never has a better find than an earlier one that searches for the same. -/
theorem better_of_mem {earlier : Matcher} (hmem : earlier ∈ front)
    (hpattern : earlier.pattern = matcher.pattern) (head : Head) (limit : Nat) :
    Candidate.better (bestBefore? head limit front) (bestBefore? head limit [matcher])
      = bestBefore? head limit front := by
  cases hbest : bestBefore? head limit [matcher] with
  | none => rw [Candidate.better_none]
  | some entry =>
    obtain ⟨-, hnext, hfits⟩ := next?_of_bestBefore? hbest
    -- the earlier one finds the same, so the best of the earlier finds is no worse
    have hfind : (earlier, entry.2) ∈ (finds head front).filter (·.2.fitsBefore limit) :=
      List.mem_filter.mpr ⟨mem_finds.mpr ⟨hmem, by rw [hpattern, hnext]⟩, hfits⟩
    cases hfront : bestBefore? head limit front with
    | none =>
      rw [Candidate.best?_eq_none_iff.mp hfront] at hfind
      exact absurd hfind List.not_mem_nil
    | some best =>
      have hbeats := Candidate.beats_eq_false_of_best? hfront _ hfind
      simp only at hbeats
      simp [Candidate.better, hbeats]

end Silent

/-! ## Dead rules -/

/-- A rule behind others that is dead on a source. -/
inductive Rule.Dead (source : Text) (before : List Rule) (rule : Rule) : Prop
  /-- It looks at the text, and what it searches for is nowhere in the source. -/
  | text {pattern : Pattern} (scope : rule.scope = .text)
      (search : Pattern.ofSearch? rule.body = some pattern)
      (nowhere : pattern.find? source = none)
  /-- It looks at lines, and what it searches for is inside no line of the source. -/
  | line {pattern : Pattern} (scope : rule.scope = .line)
      (search : Pattern.ofSearch? rule.body = some pattern)
      (nowhere : ∀ line ∈ source.lines, pattern.find? line = none)
  /-- An earlier rule looks at the same and searches for the same. -/
  | shadowed {earlier : Rule} (mem : earlier ∈ before) (scope : earlier.scope = rule.scope)
      (body : earlier.body = rule.body)

namespace Matcher

/-- The matchers of rules that stand one behind the other. -/
theorem mapM_ofRule_append_eq_ok_iff {rules others : List Rule} {matchers : List Matcher} :
    (rules ++ others).mapM ofRule = .ok matchers ↔
      ∃ front back, rules.mapM ofRule = .ok front ∧ others.mapM ofRule = .ok back ∧
        front ++ back = matchers := by
  rw [List.mapM_append]
  cases rules.mapM ofRule with
  | error fault => simp [bind, Except.bind]
  | ok front =>
    cases others.mapM ofRule with
    | error fault => simp [bind, Except.bind]
    | ok back => simp [bind, Except.bind, pure, Except.pure]

/-- **The matcher of a dead rule has no say.** -/
theorem silent_of_dead {source : Text} {before : List Rule} {rule : Rule} {front : List Matcher}
    {matcher : Matcher} (hfront : before.mapM ofRule = .ok front) (h : ofRule rule = .ok matcher)
    (hdead : rule.Dead source before) : matcher.Silent source front := by
  obtain ⟨hrule, hsearch⟩ := of_ofRule h
  cases hdead with
  | @text pattern scope search nowhere =>
    rw [hsearch, Option.some.injEq] at search
    rw [← search] at nowhere
    constructor
    · intro _ head limit hahead
      rw [bestBefore?_eq_none nowhere hahead, Candidate.better_none]
    · intro hline
      rw [hrule, scope] at hline
      exact absurd hline Scope.noConfusion
  | @line pattern scope search nowhere =>
    rw [hsearch, Option.some.injEq] at search
    rw [← search] at nowhere
    constructor
    · intro htext
      rw [hrule, scope] at htext
      exact absurd htext Scope.noConfusion
    · intro _ line hline _
      have hmem : line.text ∈ source.lines := by
        rw [← Line.map_text_ofSource]
        exact List.mem_map_of_mem hline
      rw [Claim.ofLine?_eq_none_iff, List.forall_mem_singleton]
      exact nowhere line.text hmem
  | @shadowed earlier mem scope body =>
    obtain ⟨other, hother, hof⟩ := exists_matcher_of_mapM_ofRule hfront earlier mem
    obtain ⟨hrule', hsearch'⟩ := of_ofRule hof
    have hpattern : other.pattern = matcher.pattern := by
      rw [body, hsearch, Option.some.injEq] at hsearch'
      exact hsearch'.symm
    have hscope : other.rule.scope = matcher.rule.scope := by rw [hrule', hrule, scope]
    constructor
    · intro htext head limit _
      have hmem : other ∈ textMatchers front :=
        List.mem_filter.mpr ⟨hother, by simp [hscope, htext]⟩
      exact better_of_mem hmem hpattern head limit
    · intro hline line _ hnone
      have hmem : other ∈ lineMatchers front :=
        List.mem_filter.mpr ⟨hother, by simp [hscope, hline]⟩
      rw [Claim.ofLine?_eq_none_iff, List.forall_mem_singleton, ← hpattern]
      exact Claim.ofLine?_eq_none_iff.mp hnone other hmem

end Matcher

/-- **A dead rule can be taken out of a list.**  The rules that are left can still be applied,
and they make the same segments of the source. -/
theorem sweep_of_dead {source : Text} {before after : List Rule} {rule : Rule}
    {matchers : List Matcher} (h : (before ++ rule :: after).mapM Matcher.ofRule = .ok matchers)
    (hdead : rule.Dead source before) :
    ∃ others, (before ++ after).mapM Matcher.ofRule = .ok others ∧
      sweep others source = sweep matchers source := by
  rw [← List.singleton_append (l := after)] at h
  obtain ⟨front, others, hfront, hothers, rfl⟩ := Matcher.mapM_ofRule_append_eq_ok_iff.mp h
  obtain ⟨single, back, hsingle, hback, rfl⟩ := Matcher.mapM_ofRule_append_eq_ok_iff.mp hothers
  cases Matcher.forall₂_of_mapM_ofRule hsingle with
  | @cons _ matcher _ _ hof hnil =>
    cases hnil
    refine ⟨front ++ back, ?_, ?_⟩
    · exact Matcher.mapM_ofRule_append_eq_ok_iff.mpr ⟨front, back, hfront, hback, rfl⟩
    · have hcut := (Matcher.silent_of_dead hfront hof hdead).cut_eq back
      rw [sweep_eq_map_segment, sweep_eq_map_segment, hcut]
      rfl

/-- A rule that repeats the search of an earlier one, behind a rule with longer finds and in
front of one that searches beyond the end of a line: the earlier one has all its finds. -/
theorem sweep_of_dead_shadowed :
    Rule.Dead "ab abc\nxa\nba\nc".toList (Rule.ofList "ab[or]a /// 1\n[line]x\nabc".toList)
      (Rule.marking 4 "ab[or]a".toList) ∧
    ∃ matchers others,
      (Rule.ofList "ab[or]a /// 1\n[line]x\nabc".toList
        ++ Rule.marking 4 "ab[or]a".toList :: [Rule.marking 5 "a\nc".toList]).mapM Matcher.ofRule
          = .ok matchers ∧
      (Rule.ofList "ab[or]a /// 1\n[line]x\nabc".toList
        ++ [Rule.marking 5 "a\nc".toList]).mapM Matcher.ofRule = .ok others ∧
      sweep others "ab abc\nxa\nba\nc".toList
        = [⟨.replaced, "1".toList⟩, ⟨.kept, " ".toList⟩, ⟨.added, "abc".toList⟩,
            ⟨.kept, "\n".toList⟩, ⟨.added, "xa\n".toList⟩, ⟨.kept, "b".toList⟩,
            ⟨.added, "a\nc".toList⟩] ∧
      sweep others "ab abc\nxa\nba\nc".toList = sweep matchers "ab abc\nxa\nba\nc".toList := by
  have hdead : Rule.Dead "ab abc\nxa\nba\nc".toList
      (Rule.ofList "ab[or]a /// 1\n[line]x\nabc".toList) (Rule.marking 4 "ab[or]a".toList) :=
    .shadowed List.mem_cons_self rfl rfl
  have hsegments : ((Rule.ofList "ab[or]a /// 1\n[line]x\nabc".toList
      ++ [Rule.marking 5 "a\nc".toList]).mapM Matcher.ofRule).map
        (fun others => sweep others "ab abc\nxa\nba\nc".toList)
      = .ok [⟨.replaced, "1".toList⟩, ⟨.kept, " ".toList⟩, ⟨.added, "abc".toList⟩,
          ⟨.kept, "\n".toList⟩, ⟨.added, "xa\n".toList⟩, ⟨.kept, "b".toList⟩,
          ⟨.added, "a\nc".toList⟩] := by decide
  have hok : ((Rule.ofList "ab[or]a /// 1\n[line]x\nabc".toList
      ++ Rule.marking 4 "ab[or]a".toList :: [Rule.marking 5 "a\nc".toList]).mapM
        Matcher.ofRule).isOk = true := by decide
  cases h : (Rule.ofList "ab[or]a /// 1\n[line]x\nabc".toList
      ++ Rule.marking 4 "ab[or]a".toList :: [Rule.marking 5 "a\nc".toList]).mapM Matcher.ofRule with
  | error fault =>
    rw [h] at hok
    exact absurd hok (by simp [Except.isOk, Except.toBool])
  | ok matchers =>
    obtain ⟨others, hothers, hsweep⟩ := sweep_of_dead h hdead
    rw [hothers, Except.map, Except.ok.injEq] at hsegments
    exact ⟨hdead, matchers, others, rfl, hothers, hsegments, hsweep⟩

end RuleSweep
