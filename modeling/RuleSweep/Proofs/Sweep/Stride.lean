/-
# Strides

One step of a sweep passes some text and makes the stretches for it.  `Stride` lists what a
step can do, without a word of positions or of what is remembered: it passes a claimed
line, or everything up to a limit where nothing more is found, or the next find together
with the text in front of it.  A sweep that knows where it is (`Walk.Sound`) makes a stride
and then still knows where it is (`Walk.Sound.step`), so the whole sweep is a sequence of
strides: `strides_cut`.
-/
import RuleSweep.Proofs.Sweep.Ahead
import RuleSweep.Proofs.Sweep.Memory
import RuleSweep.Proofs.Pattern.Bounds
import RuleSweep.Sweep

namespace RuleSweep

/-! ## Strides -/

/-- The matchers that look at whole lines. -/
def lineMatchers (matchers : List Matcher) : List Matcher :=
  matchers.filter (·.rule.scope = .line)

/-- The matchers that look at any stretch of the text. -/
def textMatchers (matchers : List Matcher) : List Matcher :=
  matchers.filter (·.rule.scope = .text)

/-- The text `free` has no claimed line in it and reaches up to the next claimed line, or
to the end of the source. -/
structure Free (matchers : List Matcher) (behind free fenced : Text) : Prop where
  /-- It holds at least one character. -/
  ne_nil : free ≠ []
  /-- No claimed line begins in it. -/
  unclaimed : ∀ claim ∈ Claim.ahead (lineMatchers matchers) behind (free ++ fenced),
    (behind ++ free).length ≤ claim.line.start
  /-- Behind it lies nothing, or a line that is claimed. -/
  fence : fenced = [] ∨ (behind ++ free).endsLine = true ∧
    ∃ claim, Claim.ofLine? (lineMatchers matchers)
      ⟨(behind ++ free).length, fenced.firstLine⟩ = some claim

/-- The finds ahead of a position that end before a limit. -/
def findsBefore (matchers : List Matcher) (behind ahead : Text) (limit : Nat) :
    List (Matcher × Candidate) :=
  (finds ⟨behind.length, ahead⟩ (textMatchers matchers)).filter (·.2.fitsBefore limit)

/-- The stretch of a text that is kept, if there is any. -/
def Stretch.keeping (text : Text) : List Stretch :=
  if text = [] then [] else [.kept text]

/-- What one step of a sweep can do: with the text `behind` behind it and
`passed ++ rest` ahead of it, it passes `passed` and makes some stretches. -/
inductive Stride (matchers : List Matcher) (behind : Text) :
    (passed rest : Text) → List Stretch → Prop
  /-- It passes a claimed line that begins here. -/
  | claimed {passed rest : Text} {claim : Claim} (begins : behind.endsLine = true)
      (line : (passed ++ rest).firstLine = passed)
      (claims : Claim.ofLine? (lineMatchers matchers) ⟨behind.length, passed⟩ = some claim) :
      Stride matchers behind passed rest [.claimed claim]
  /-- It passes everything up to the limit, because nothing is found there. -/
  | kept {free fenced : Text} (isFree : Free matchers behind free fenced)
      (nothing : findsBefore matchers behind (free ++ fenced) (behind ++ free).length = []) :
      Stride matchers behind free fenced [.kept free]
  /-- It passes the best find in front of the limit. -/
  | found {gap span rest free fenced : Text} {matcher : Matcher} {groups : Groups}
      (isFree : Free matchers behind free fenced) (ahead : gap ++ span ++ rest = free ++ fenced)
      (best : Candidate.best?
        (findsBefore matchers behind (free ++ fenced) (behind ++ free).length)
          = some (matcher, ⟨(behind ++ gap).length, span, groups⟩)) :
      Stride matchers behind (gap ++ span) rest
        (Stretch.keeping gap ++ [.found matcher ⟨(behind ++ gap).length, span, groups⟩])

/-- What a whole sweep does: one stride after the other, each of them past at least one
character, up to the end of the source. -/
inductive Strides (matchers : List Matcher) : (behind ahead : Text) → List Stretch → Prop
  /-- At the end there is nothing to do. -/
  | done (behind : Text) : Strides matchers behind [] []
  /-- One stride, and those behind it. -/
  | stride {behind passed rest : Text} {made later : List Stretch} (hpassed : passed ≠ [])
      (first : Stride matchers behind passed rest made)
      (others : Strides matchers (behind ++ passed) rest later) :
      Strides matchers behind (passed ++ rest) (made ++ later)

/-- Up to any place in a free stretch no claimed line begins. -/
theorem Free.unclaimed_of_le {matchers : List Matcher} {behind free fenced passed rest : Text}
    (hfree : Free matchers behind free fenced) (hsplit : passed ++ rest = free ++ fenced)
    (hle : passed.length ≤ free.length) :
    ∀ claim ∈ Claim.ahead (lineMatchers matchers) behind (passed ++ rest),
      (behind ++ passed).length ≤ claim.line.start := by
  intro claim hclaim
  rw [hsplit] at hclaim
  have hlimit := hfree.unclaimed claim hclaim
  rw [List.length_append] at hlimit ⊢
  omega

/-- No line that begins in a free stretch is claimed. -/
theorem Free.ofLine?_eq_none {matchers : List Matcher} {behind free fenced gap rest : Text}
    (hfree : Free matchers behind free fenced) (hsplit : gap ++ rest = free ++ fenced)
    (hgap : gap.length < free.length) (hends : (behind ++ gap).endsLine = true) :
    Claim.ofLine? (lineMatchers matchers) ⟨(behind ++ gap).length, rest.firstLine⟩ = none := by
  cases hclaim : Claim.ofLine? (lineMatchers matchers)
      ⟨(behind ++ gap).length, rest.firstLine⟩ with
  | none => rfl
  | some claim =>
    have hline := (Claim.ofLine?_eq_some hclaim).1
    have hrest : rest ≠ [] := by
      rintro rfl
      have hlength := congrArg List.length hsplit
      simp only [List.length_append, List.length_nil] at hlength
      omega
    have hmem : claim ∈ Claim.ahead (lineMatchers matchers) behind (free ++ fenced) := by
      rw [Claim.mem_ahead, Line.mem_ahead, hline]
      exact ⟨⟨gap, rest, hsplit.symm, hrest, hends, rfl⟩, hclaim⟩
    have hle := hfree.unclaimed claim hmem
    simp only [hline, List.length_append] at hle
    omega

/-- No free stretch begins where a claimed line begins. -/
theorem Free.not_of_claim {matchers : List Matcher} {behind line free fenced : Text} {claim : Claim}
    (hends : behind.endsLine = true)
    (hclaim : Claim.ofLine? (lineMatchers matchers) ⟨behind.length, line⟩ = some claim)
    (hline : (free ++ fenced).firstLine = line) : ¬ Free matchers behind free fenced := by
  intro hfree
  have hpos := List.length_pos_of_ne_nil hfree.ne_nil
  have hnone := hfree.ofLine?_eq_none (List.nil_append _) hpos (by rwa [List.append_nil])
  rw [List.append_nil, hline, hclaim] at hnone
  exact absurd hnone (by simp)

/-! ## The best find -/

namespace Candidate

/-- There is a best find as soon as there is any. -/
theorem best?_eq_none_iff {entries : List (Matcher × Candidate)} :
    best? entries = none ↔ entries = [] := by
  cases entries with
  | nil => simp [best?]
  | cons entry others =>
    rw [best?]
    cases best? others with
    | none => simp
    | some other => by_cases h : other.2.beats entry.2 = true <;> simp [h]

/-- The best find is one of the finds. -/
theorem mem_of_best? {entries : List (Matcher × Candidate)} {entry : Matcher × Candidate}
    (h : best? entries = some entry) : entry ∈ entries := by
  induction entries generalizing entry with
  | nil => simp [best?] at h
  | cons first others ih =>
    rw [best?] at h
    cases hothers : best? others with
    | none =>
      simp only [hothers, Option.some.injEq] at h
      exact h ▸ List.mem_cons_self
    | some other =>
      simp only [hothers] at h
      split at h
      · exact List.mem_cons_of_mem first (ih (h ▸ hothers))
      · rw [Option.some.injEq] at h
        exact h ▸ List.mem_cons_self

/-- A find that does not beat another one begins further to the right, or at the same place
and is not longer. -/
theorem beats_eq_false_iff {candidate other : Candidate} :
    candidate.beats other = false ↔ other.start ≤ candidate.start ∧
      (candidate.start = other.start → candidate.text.length ≤ other.text.length) := by
  simp only [beats, Bool.or_eq_false_iff, Bool.and_eq_false_imp, decide_eq_true_eq,
    decide_eq_false_iff_not, Nat.not_lt]

/-- No find beats the best one. -/
theorem beats_eq_false_of_best? {entries : List (Matcher × Candidate)}
    {best : Matcher × Candidate} (h : best? entries = some best) :
    ∀ entry ∈ entries, entry.2.beats best.2 = false := by
  induction entries generalizing best with
  | nil => simp
  | cons first others ih =>
    rw [best?] at h
    cases hothers : best? others with
    | none =>
      rw [hothers, Option.some.injEq] at h
      rw [best?_eq_none_iff] at hothers
      subst h
      simp [hothers, beats_eq_false_iff]
    | some other =>
      simp only [hothers] at h
      have hbest := ih hothers
      simp only [beats_eq_false_iff] at hbest ⊢
      rw [List.forall_mem_cons]
      split at h
      · next hbeats =>
        rw [Option.some.injEq] at h
        subst h
        simp only [beats, Bool.or_eq_true, Bool.and_eq_true, decide_eq_true_eq] at hbeats
        exact ⟨by omega, hbest⟩
      · next hbeats =>
        rw [Option.some.injEq] at h
        subst h
        rw [Bool.not_eq_true, beats_eq_false_iff] at hbeats
        refine ⟨by omega, fun entry hentry => ?_⟩
        have hentry' := hbest entry hentry
        omega

/-- No find begins in front of the best one. -/
theorem start_le_of_best? {entries : List (Matcher × Candidate)} {best : Matcher × Candidate}
    (h : best? entries = some best) : ∀ entry ∈ entries, best.2.start ≤ entry.2.start :=
  fun entry hentry => (beats_eq_false_iff.mp (beats_eq_false_of_best? h entry hentry)).1

/-- The best find is the best of those that begin where it begins. -/
theorem best?_filter {entries : List (Matcher × Candidate)} {best : Matcher × Candidate}
    (h : best? entries = some best) :
    best? (entries.filter (·.2.start = best.2.start)) = some best := by
  induction entries generalizing best with
  | nil => exact absurd h (by simp [best?])
  | cons first others ih =>
    rw [best?] at h
    cases hothers : best? others with
    | none =>
      rw [hothers] at h
      rw [best?_eq_none_iff] at hothers
      cases h
      simp [hothers, best?]
    | some other =>
      simp only [hothers] at h
      split at h
      · next hbeats =>
        rw [Option.some.injEq] at h
        subst h
        by_cases hstart : first.2.start = other.2.start
        · rw [List.filter_cons_of_pos (by simpa using hstart), best?, ih hothers]
          simp only
          rw [if_pos hbeats]
        · rw [List.filter_cons_of_neg (by simpa using hstart), ih hothers]
      · next hbeats =>
        rw [Option.some.injEq] at h
        subst h
        rw [List.filter_cons_of_pos (by simp), best?]
        by_cases hstart : other.2.start = first.2.start
        · rw [← hstart, ih hothers]
          simp only
          rw [if_neg hbeats]
        · -- the finds behind it all begin further to the right
          have hnil : others.filter (·.2.start = first.2.start) = [] := by
            rw [List.filter_eq_nil_iff]
            intro entry hentry
            have hle := start_le_of_best? hothers entry hentry
            simp only [beats, Bool.or_eq_true, Bool.and_eq_true, decide_eq_true_eq] at hbeats ⊢
            omega
          rw [hnil, best?]

end Candidate

/-- A find before a limit begins at or behind the position, and ends at or before the
limit; at its place the pattern fits, and at no place in front of it. -/
theorem mem_findsBefore {matchers : List Matcher} {behind ahead : Text} {limit : Nat}
    {matcher : Matcher} {candidate : Candidate}
    (h : (matcher, candidate) ∈ findsBefore matchers behind ahead limit) :
    matcher ∈ textMatchers matchers ∧ candidate.start < limit ∧ candidate.stop ≤ limit ∧
      ∃ gap rest, ahead = gap ++ candidate.text ++ rest ∧
        candidate.start = (behind ++ gap).length ∧
        matcher.pattern.hit? (candidate.text ++ rest)
          = some ⟨candidate.text.length, candidate.groups⟩ ∧
        ∀ s < gap.length, matcher.pattern.hit? (ahead.drop s) = none := by
  rw [findsBefore, List.mem_filter, mem_finds] at h
  obtain ⟨⟨hmatcher, hnext⟩, hfits⟩ := h
  simp only [Candidate.fitsBefore, Bool.and_eq_true, decide_eq_true_eq] at hfits
  obtain ⟨gap, rest, hahead, hstart, hhit, hbefore⟩ := Candidate.exists_gap_of_next? hnext
  refine ⟨hmatcher, hfits.1, hfits.2, gap, rest, hahead, ?_, hhit, hbefore⟩
  rw [hstart, List.length_append]

/-- The best find in front of the end of a free stretch ends in that stretch. -/
theorem length_le_of_best? {matchers : List Matcher} {behind ahead gap span free : Text}
    {matcher : Matcher} {groups : Groups}
    (h : Candidate.best? (findsBefore matchers behind ahead (behind ++ free).length)
      = some (matcher, ⟨(behind ++ gap).length, span, groups⟩)) :
    (gap ++ span).length ≤ free.length := by
  have hstop := (mem_findsBefore (Candidate.mem_of_best? h)).2.2.1
  simp only [Candidate.stop, List.length_append] at hstop ⊢
  omega

/-- A find of a solid pattern holds at least one character. -/
theorem text_ne_nil_of_mem_findsBefore {matchers : List Matcher} {behind ahead : Text}
    {limit : Nat} {matcher : Matcher} {candidate : Candidate}
    (hsolid : ∀ matcher ∈ matchers, matcher.pattern.Solid)
    (h : (matcher, candidate) ∈ findsBefore matchers behind ahead limit) :
    candidate.text ≠ [] := by
  obtain ⟨hmatcher, -, -, gap, rest, -, -, hhit, -⟩ := mem_findsBefore h
  have hpos := Pattern.hit?_pos (hsolid matcher (List.mem_of_mem_filter hmatcher)) hhit
  exact List.ne_nil_of_length_pos hpos

/-- A find behind a gap is how the pattern fits right there. -/
theorem hit?_of_mem_findsBefore {matchers : List Matcher} {behind gap span rest : Text}
    {limit : Nat} {matcher : Matcher} {groups : Groups}
    (h : (matcher, ⟨(behind ++ gap).length, span, groups⟩)
      ∈ findsBefore matchers behind (gap ++ span ++ rest) limit) :
    matcher.pattern.hit? (span ++ rest) = some ⟨span.length, groups⟩ := by
  obtain ⟨-, -, -, gap', rest', hsplit, hstart, hhit, -⟩ := mem_findsBefore h
  simp only [List.length_append] at hsplit hstart hhit
  have hgap : gap = gap' := by
    rw [List.append_assoc, List.append_assoc] at hsplit
    exact List.append_inj_left hsplit (by omega)
  subst hgap
  rwa [List.append_cancel_left hsplit]

/-! ## A sweep that knows where it is -/

namespace Walk

/-- The sweep has the text `behind` behind it: its position, the claims ahead and what it
remembers of the other rules are right. -/
structure Sound (matchers : List Matcher) (behind : Text) (walk : Walk) : Prop where
  /-- The size is that of the source. -/
  size : walk.size = (behind ++ walk.head.ahead).length
  /-- The position is the number of characters behind. -/
  position : walk.head.position = behind.length
  /-- The claims are those on the lines ahead. -/
  claims : walk.claims = Claim.ahead (lineMatchers matchers) behind walk.head.ahead
  /-- The memo is that of the matchers that do not look at lines. -/
  memo_fst : walk.memo.map Prod.fst = textMatchers matchers
  /-- What is remembered is right. -/
  memo : Memo.Right walk.head walk.memo

/-- At its beginning a sweep knows where it is. -/
theorem sound_start (matchers : List Matcher) (source : Text) :
    Sound matchers [] (start matchers source) where
  size := rfl
  position := rfl
  claims := Claim.ofSource_eq_ahead _ _
  memo_fst := Memo.map_fst_fresh _
  memo := Memo.right_fresh _ _

variable {matchers : List Matcher} {behind passed rest : Text} {walk : Walk}

/-- The head of a sweep that knows where it is. -/
theorem Sound.head_eq (h : Sound matchers behind walk) :
    walk.head = ⟨behind.length, walk.head.ahead⟩ := by
  rw [← h.position]

/-- A sweep that moves on, but not past a claim, still knows where it is. -/
theorem Sound.advance {memo : Memo} (h : Sound matchers behind walk)
    (hahead : walk.head.ahead = passed ++ rest)
    (hclaims : ∀ claim ∈ Claim.ahead (lineMatchers matchers) behind (passed ++ rest),
      (behind ++ passed).length ≤ claim.line.start)
    (hfst : memo.map Prod.fst = walk.memo.map Prod.fst) (hmemo : Memo.Right walk.head memo) :
    Sound matchers (behind ++ passed)
      { walk with head := walk.head.advance passed.length, memo } := by
  have hrest : (walk.head.advance passed.length).ahead = rest := by
    rw [Head.advance, hahead, List.drop_left]
  refine ⟨?_, ?_, ?_, hfst.trans h.memo_fst, hmemo.advance passed.length⟩
  · show walk.size = (behind ++ passed ++ (walk.head.advance passed.length).ahead).length
    rw [hrest, h.size, hahead, List.append_assoc]
  · rw [Head.advance, h.position, List.length_append]
  · show walk.claims = Claim.ahead _ _ (walk.head.advance passed.length).ahead
    rw [hrest, h.claims, hahead, Claim.ahead_append hclaims]

/-- What a step towards a limit does, if all that is remembered is right. -/
theorem Sound.seek_eq (h : Sound matchers behind walk) (limit : Nat) :
    walk.seek limit =
      match Candidate.best? (findsBefore matchers behind walk.head.ahead limit) with
      | none =>
        (walk.keep (limit - behind.length),
          { walk with head := walk.head.advance (limit - behind.length),
                      memo := (Memo.askAll walk.head walk.memo).2 })
      | some (matcher, candidate) =>
        (walk.keep (candidate.start - behind.length) ++ [.found matcher candidate],
          { walk with head := walk.head.advance (candidate.stop - behind.length),
                      memo := (Memo.askAll walk.head walk.memo).2 }) := by
  have hfinds := Memo.askAll_eq_finds h.memo
  rw [h.memo_fst] at hfinds
  rw [findsBefore, ← h.head_eq, ← hfinds, ← h.position]
  rfl

/-- The text up to some place ahead is kept, if there is any. -/
theorem keep_eq_keeping {text : Text} (hahead : walk.head.ahead = text ++ rest) :
    walk.keep text.length = Stretch.keeping text := by
  rw [keep, Stretch.keeping, hahead, List.take_left]
  simp only [List.length_eq_zero_iff]

/-- A step that does not begin at a claimed line is a stride up to the limit or past the
best find, and the sweep still knows where it is. -/
theorem Sound.seek {free fenced : Text} (h : Sound matchers behind walk)
    (hahead : walk.head.ahead = free ++ fenced) (hfree : Free matchers behind free fenced) :
    ∃ passed rest made walk', walk.seek (behind ++ free).length = (made, walk') ∧
      walk.head.ahead = passed ++ rest ∧ walk'.head.ahead = rest ∧
      Stride matchers behind passed rest made ∧ Sound matchers (behind ++ passed) walk' := by
  have hasked := Memo.right_askAll h.memo
  have hfst := Memo.map_fst_askAll walk.head walk.memo
  have hlimit : (behind ++ free).length - behind.length = free.length := by
    rw [List.length_append]
    omega
  -- either nothing is found in front of the limit, or the best find splits the free text
  rw [h.seek_eq, hahead]
  cases hbest : Candidate.best?
      (findsBefore matchers behind (free ++ fenced) (behind ++ free).length) with
  | none =>
    refine ⟨free, fenced, [.kept free], _, ?_, rfl, ?_, ?_,
      h.advance hahead hfree.unclaimed hfst hasked⟩
    · rw [hlimit, keep_eq_keeping hahead, Stretch.keeping, if_neg hfree.ne_nil]
    · rw [Head.advance, hahead, List.drop_left]
    · exact .kept hfree (Candidate.best?_eq_none_iff.mp hbest)
  | some entry =>
    obtain ⟨matcher, start, span, groups⟩ := entry
    obtain ⟨-, -, -, gap, rest, hsplit, hstart, -, -⟩ :=
      mem_findsBefore (Candidate.mem_of_best? hbest)
    simp only at hsplit hstart
    subst hstart
    have hpassed : (behind ++ gap).length + span.length - behind.length
        = (gap ++ span).length := by
      rw [List.length_append, List.length_append]
      omega
    have hgap : (behind ++ gap).length - behind.length = gap.length := by
      rw [List.length_append]
      omega
    have hunclaimed := hfree.unclaimed_of_le hsplit.symm (length_le_of_best? hbest)
    rw [hsplit] at hahead
    refine ⟨gap ++ span, rest, _, _, ?_, hsplit, ?_, .found hfree hsplit.symm hbest,
      h.advance hahead hunclaimed hfst hasked⟩
    · simp only [Candidate.stop]
      rw [hpassed, hgap, keep_eq_keeping (hahead.trans (List.append_assoc gap span rest))]
    · rw [Head.advance, hahead, List.drop_left]

/-- A sweep passes a claimed line that begins at its position, and still knows where it
is. -/
theorem Sound.pass {claim : Claim} {later : List Claim} (h : Sound matchers behind walk)
    (hclaims : walk.claims = claim :: later) (hstart : claim.line.start = behind.length) :
    ∃ passed rest, walk.head.ahead = passed ++ rest ∧
      (walk.head.advance claim.line.text.length).ahead = rest ∧
      Stride matchers behind passed rest [.claimed claim] ∧
      Sound matchers (behind ++ passed)
        { walk with head := walk.head.advance claim.line.text.length, claims := later } := by
  have hahead : Claim.ahead (lineMatchers matchers) behind walk.head.ahead = claim :: later := by
    rw [← h.claims, hclaims]
  have hclaim := (Claim.mem_ahead.mp (hahead ▸ List.mem_cons_self)).2
  obtain ⟨hends, -, heq, hlater⟩ := Claim.ahead_eq_cons_of_start hahead hstart
  obtain ⟨rest, hrest⟩ := Text.firstLine_prefix walk.head.ahead
  have hlength : claim.line.text.length = walk.head.ahead.firstLine.length := by rw [heq]
  have hdrop : walk.head.ahead.drop walk.head.ahead.firstLine.length = rest := by
    have hdrop' : (walk.head.ahead.firstLine ++ rest).drop walk.head.ahead.firstLine.length
        = rest := List.drop_left
    rwa [hrest] at hdrop'
  refine ⟨walk.head.ahead.firstLine, rest, hrest.symm, ?_,
    .claimed hends (by rw [hrest]) (by rw [← heq]; exact hclaim), ?_⟩
  · rw [Head.advance, hlength, hdrop]
  · refine ⟨?_, ?_, ?_, h.memo_fst, h.memo.advance _⟩
    · have hsize := congrArg List.length hrest
      simp only [Head.advance, hlength, hdrop, h.size, List.length_append] at hsize ⊢
      omega
    · rw [Head.advance, hlength, h.position, List.length_append]
    · rw [Head.advance, hlength, hlater]

end Walk

/-- If the next claimed line begins further on, the text up to it is free. -/
theorem Free.of_ahead {matchers : List Matcher} {behind ahead : Text} {claim : Claim}
    {later : List Claim} (h : Claim.ahead (lineMatchers matchers) behind ahead = claim :: later)
    (hstart : claim.line.start ≠ behind.length) :
    ∃ free fenced, ahead = free ++ fenced ∧ claim.line.start = (behind ++ free).length ∧
      Free matchers behind free fenced := by
  obtain ⟨hline, hclaim⟩ := Claim.mem_ahead.mp (h ▸ List.mem_cons_self)
  obtain ⟨free, fenced, hsplit, -, hends, heq⟩ := Line.mem_ahead.mp hline
  refine ⟨free, fenced, hsplit, by rw [heq], ?_, ?_, Or.inr ⟨hends, claim, ?_⟩⟩
  · rintro rfl
    rw [heq, List.append_nil] at hstart
    exact hstart rfl
  · -- the claims ahead stand in order, so the first of them is the limit for all
    intro other hother
    have hpairwise := Claim.pairwise_ahead (lineMatchers matchers) behind ahead
    rw [h, List.pairwise_cons] at hpairwise
    rw [← hsplit, h] at hother
    rcases List.mem_cons.mp hother with rfl | hother
    · exact Nat.le_of_eq (by rw [heq])
    · have hlt := hpairwise.1 other hother
      rw [heq] at hlt
      exact Nat.le_of_lt hlt
  · rw [← heq]
    exact hclaim

/-- **A sweep that knows where it is makes a stride, and then still knows where it is.** -/
theorem Walk.Sound.step {matchers : List Matcher} {behind : Text} {walk : Walk}
    (h : Sound matchers behind walk) (hne : walk.head.ahead ≠ []) :
    ∃ passed rest made walk', walk.step = (made, walk') ∧
      walk.head.ahead = passed ++ rest ∧ walk'.head.ahead = rest ∧
      Stride matchers behind passed rest made ∧ Sound matchers (behind ++ passed) walk' := by
  cases hclaims : walk.claims with
  | nil =>
    -- without a claim all the rest is free
    have hfree : Free matchers behind walk.head.ahead [] := by
      refine ⟨hne, ?_, Or.inl rfl⟩
      rw [List.append_nil, ← h.claims, hclaims]
      simp
    rw [Walk.step, hclaims, h.size]
    exact h.seek (List.append_nil _).symm hfree
  | cons claim later =>
    rw [Walk.step, hclaims]
    simp only
    by_cases hstart : claim.line.start = behind.length
    · obtain ⟨passed, rest, hahead, hrest, hstride, hsound⟩ := h.pass hclaims hstart
      rw [if_pos (hstart.trans h.position.symm)]
      exact ⟨passed, rest, _, _, rfl, hahead, hrest, hstride, hsound⟩
    · obtain ⟨free, fenced, hsplit, hlimit, hfree⟩ :=
        Free.of_ahead (h.claims.symm.trans hclaims) hstart
      rw [if_neg (by rw [h.position]; exact hstart), hlimit]
      exact h.seek hsplit hfree

/-! ## The whole sweep -/

/-- The text that a find before a limit takes is not empty if its pattern is solid. -/
theorem Stride.passed_ne_nil {matchers : List Matcher} {behind passed rest : Text}
    {made : List Stretch} (hsolid : ∀ matcher ∈ matchers, matcher.pattern.Solid)
    (hahead : passed ++ rest ≠ []) (h : Stride matchers behind passed rest made) :
    passed ≠ [] := by
  cases h with
  | claimed _ line _ =>
    rw [← line]
    exact Text.firstLine_ne_nil hahead
  | kept isFree _ => exact isFree.ne_nil
  | @found gap span _ _ _ _ _ _ _ best =>
    have hspan : span ≠ [] :=
      text_ne_nil_of_mem_findsBefore hsolid (Candidate.mem_of_best? best)
    exact List.append_ne_nil_of_right_ne_nil gap hspan

/-- From wherever a sweep is and knows it, it makes strides up to the end. -/
theorem Walk.Sound.strides {matchers : List Matcher} {behind : Text} {walk : Walk}
    (hsolid : ∀ matcher ∈ matchers, matcher.pattern.Solid) (h : Sound matchers behind walk)
    {limit : Nat} (hlimit : walk.head.ahead.length ≤ limit) :
    Strides matchers behind walk.head.ahead (stretches limit walk) := by
  -- every stride passes a character, so the bound never runs out before the source does
  induction limit generalizing behind walk with
  | zero =>
    rw [List.length_eq_zero_iff.mp (Nat.le_zero.mp hlimit)]
    exact .done behind
  | succ limit ih =>
    rw [stretches_succ, h.size, h.position, List.length_append]
    split
    · next hlt =>
      have hne : walk.head.ahead ≠ [] := List.ne_nil_of_length_pos (by omega)
      obtain ⟨passed, rest, made, walk', hstep, hahead, hrest, hstride, hsound⟩ := h.step hne
      have hpassed := hstride.passed_ne_nil hsolid (hahead ▸ hne)
      have hpos := List.length_pos_of_ne_nil hpassed
      rw [hahead, List.length_append] at hlimit
      rw [hahead, hstep, ← hrest]
      refine .stride hpassed (hrest ▸ hstride) (ih hsound ?_)
      rw [hrest]
      omega
    · next hge =>
      rw [List.length_eq_zero_iff.mp (by omega : walk.head.ahead.length = 0)]
      exact .done behind

/-- **A sweep consists of strides.** -/
theorem strides_cut {matchers : List Matcher}
    (hsolid : ∀ matcher ∈ matchers, matcher.pattern.Solid) (source : Text) :
    Strides matchers [] source (cut matchers source) :=
  (Walk.sound_start matchers source).strides hsolid (Nat.le_refl source.length)

end RuleSweep
