/-
# The plain walk

A sweep jumps from find to find.  The plain walk goes through the source one character
after the other and remembers nothing.  At every position it asks whether a rule for lines
claims the line that begins there (`claimAt?`), then which rules for text fit right there
(`hitsAt`), of which the longest hit is taken; if there is none, the character joins a run
that is kept.  The two find the same stretches (`Strides.eq_plainFrom`), provided that no
rule searches for a newline: then a hit that begins in front of a claimed line also ends
in front of it (`Free.hit_le`), and nothing is lost because of the limit.
-/
import Mathlib.Data.List.MinMax
import RuleSweep.Proofs.RuleList
import RuleSweep.Proofs.Sweep.Stride

namespace RuleSweep

/-! ## The walk -/

/-- What the wildcards of a pattern find at the leftmost place of a line where it fits;
the places are tried one after the other. -/
def Pattern.inside? (pattern : Pattern) (line : Text) : Option Groups :=
  line.tails.findSome? fun t => (pattern.hit? t).map Hit.groups

/-- The claim of the first rule for lines that fits inside the line that begins here, if
a line begins here. -/
def claimAt? (matchers : List Matcher) (behind t : Text) : Option Claim :=
  if behind.endsLine then
    (lineMatchers matchers).findSome? fun matcher =>
      (matcher.pattern.inside? t.firstLine).map fun groups =>
        ⟨⟨behind.length, t.firstLine⟩, matcher, groups⟩
  else none

/-- The rules for text that fit right here, in their order, each with its hit. -/
def hitsAt (matchers : List Matcher) (t : Text) : List (Matcher × Hit) :=
  (textMatchers matchers).filterMap fun matcher =>
    (matcher.pattern.hit? t).map fun hit => (matcher, hit)

/-- A hit right here as a find. -/
def Hit.toCandidate (hit : Hit) (behind t : Text) : Candidate :=
  ⟨behind.length, t.take hit.length, hit.groups⟩

/-- What there is right here: a claimed line, or else the longest hit, and among the
longest that of the earliest rule. -/
def eventAt? (matchers : List Matcher) (behind t : Text) : Option Stretch :=
  match claimAt? matchers behind t with
  | some claim => some (.claimed claim)
  | none =>
    ((hitsAt matchers t).argmax (·.2.length)).map fun entry =>
      .found entry.1 (entry.2.toCandidate behind t)

/-- The stretches of the plain walk from a position on, when the next `skip` characters
belong to an event that is dealt with, and `run` is the run of characters right behind
that are kept. -/
def plainFrom (matchers : List Matcher) :
    (skip : Nat) → (run behind : Text) → Text → List Stretch
  | _, run, _, [] => Stretch.keeping run
  | skip + 1, run, behind, c :: rest => plainFrom matchers skip run (behind ++ [c]) rest
  | 0, run, behind, c :: rest =>
    match eventAt? matchers behind (c :: rest) with
    | some event =>
      Stretch.keeping run
        ++ event :: plainFrom matchers (event.span.length - 1) [] (behind ++ [c]) rest
    | none => plainFrom matchers 0 (run ++ [c]) (behind ++ [c]) rest

/-- The segments that the plain walk makes of a source. -/
def plainSweep (matchers : List Matcher) (source : Text) : List Segment :=
  (plainFrom matchers 0 [] [] source).map Stretch.segment

/-! ## Steps of the walk -/

section Steps

variable {matchers : List Matcher} {run behind passed rest : Text}

/-- The walk skips what belongs to an event. -/
theorem plainFrom_skip :
    plainFrom matchers passed.length run behind (passed ++ rest)
      = plainFrom matchers 0 run (behind ++ passed) rest := by
  induction passed generalizing behind with
  | nil => rw [List.length_nil, List.nil_append, List.append_nil]
  | cons c passed ih =>
    rw [List.length_cons, List.cons_append, plainFrom, ih, ← List.append_cons]

/-- The walk makes an event the next stretch and goes on behind it. -/
theorem plainFrom_event {event : Stretch}
    (hevent : eventAt? matchers behind (passed ++ rest) = some event)
    (hspan : event.span = passed) (hpassed : passed ≠ []) :
    plainFrom matchers 0 run behind (passed ++ rest)
      = Stretch.keeping run ++ event :: plainFrom matchers 0 [] (behind ++ passed) rest := by
  cases passed with
  | nil => exact absurd rfl hpassed
  | cons c passed =>
    have hskip : event.span.length - 1 = passed.length := by rw [hspan, List.length_cons]; rfl
    rw [List.cons_append] at hevent ⊢
    rw [plainFrom, hevent]
    simp only
    rw [hskip, plainFrom_skip, ← List.append_cons]

/-- Where there is nothing, the characters join the run. -/
theorem plainFrom_quiet
    (hquiet : ∀ before after, passed = before ++ after → after ≠ [] →
      eventAt? matchers (behind ++ before) (after ++ rest) = none) :
    plainFrom matchers 0 run behind (passed ++ rest)
      = plainFrom matchers 0 (run ++ passed) (behind ++ passed) rest := by
  induction passed generalizing run behind with
  | nil => rw [List.nil_append, List.append_nil, List.append_nil]
  | cons c passed ih =>
    have hhere := hquiet [] (c :: passed) rfl (List.cons_ne_nil c passed)
    rw [List.append_nil, List.cons_append] at hhere
    rw [List.cons_append, plainFrom, hhere]
    simp only
    rw [ih, ← List.append_cons, ← List.append_cons]
    intro before after heq hafter
    rw [← List.append_cons]
    exact hquiet (c :: before) after (by rw [heq, List.cons_append]) hafter

/-- The run ends at an event and at the end of the source. -/
theorem plainFrom_flush (h : rest = [] ∨ eventAt? matchers behind rest ≠ none) :
    plainFrom matchers 0 run behind rest
      = Stretch.keeping run ++ plainFrom matchers 0 [] behind rest := by
  cases rest with
  | nil => simp [plainFrom, Stretch.keeping]
  | cons c rest =>
    have hsome := h.resolve_left (List.cons_ne_nil c rest)
    rw [plainFrom, plainFrom]
    cases hevent : eventAt? matchers behind (c :: rest) with
    | none => exact absurd hevent hsome
    | some event => simp [Stretch.keeping]

end Steps

/-! ## Claimed lines -/

/-- Trying all places of a line is searching it. -/
theorem Pattern.inside?_eq (pattern : Pattern) (line : Text) :
    pattern.inside? line = (pattern.find? line).map (·.hit.groups) := by
  induction line with
  | nil =>
    rw [inside?, find?, findAfter, List.tails, List.findSome?_cons]
    cases pattern.hit? [] <;> rfl
  | cons c rest ih =>
    rw [inside?] at ih ⊢
    rw [find?_cons, List.tails, List.findSome?_cons, ih]
    cases pattern.hit? (c :: rest) with
    | some hit => rfl
    | none => cases pattern.find? rest <;> rfl

/-- The claim at a position is the claim on the line that begins there. -/
theorem claimAt?_eq (matchers : List Matcher) (behind t : Text) :
    claimAt? matchers behind t
      = if behind.endsLine then
          Claim.ofLine? (lineMatchers matchers) ⟨behind.length, t.firstLine⟩
        else none := by
  rw [claimAt?, Claim.ofLine?]
  congr 2
  funext matcher
  rw [Pattern.inside?_eq, Option.map_map]
  rfl

section Free

variable {matchers : List Matcher} {behind free fenced gap rest : Text}

/-- In a free stretch no line is claimed. -/
theorem Free.claimAt?_eq_none (hfree : Free matchers behind free fenced)
    (hsplit : gap ++ rest = free ++ fenced) (hgap : gap.length < free.length) :
    claimAt? matchers (behind ++ gap) rest = none := by
  rw [claimAt?_eq]
  split
  · next hends => exact hfree.ofLine?_eq_none hsplit hgap hends
  · rfl

/-- **A hit that begins in a free stretch ends there**, if its pattern stays within
lines: in front of the next claimed line stands a newline. -/
theorem Free.hit_le {pattern : Pattern} {hit : Hit} (hline : pattern.WithinLine)
    (hfree : Free matchers behind free fenced) (hsplit : gap ++ rest = free ++ fenced)
    (hgap : gap.length < free.length) (hhit : pattern.hit? rest = some hit) :
    gap.length + hit.length ≤ free.length := by
  have hrest : rest = free.drop gap.length ++ fenced := by
    have hdrop := congrArg (List.drop gap.length) hsplit
    rwa [List.drop_left, List.drop_append_of_le_length (Nat.le_of_lt hgap)] at hdrop
  rcases hfree.fence with hnil | ⟨hends, -⟩
  · have hle := Pattern.hit?_length_le hhit
    rw [hrest, hnil, List.append_nil, List.length_drop] at hle
    omega
  · by_contra hlong
    -- the hit would take the newline at the end of the free stretch
    have hlast : (free.drop gap.length).getLast? = some '\n' := by
      rw [Text.endsLine, List.getLast?_append_of_ne_nil behind hfree.ne_nil] at hends
      rw [List.getLast?_drop, if_neg (by omega)]
      cases hlast : free.getLast? with
      | none => exact absurd (List.getLast?_eq_none_iff.mp hlast) hfree.ne_nil
      | some c =>
        rw [hlast, Option.all_some, decide_eq_true_eq] at hends
        rw [hends]
    have hmem : '\n' ∈ rest.take hit.length := by
      rw [hrest, List.take_append, List.mem_append]
      refine Or.inl ?_
      rw [List.take_of_length_le (by rw [List.length_drop]; omega)]
      exact List.mem_of_getLast? hlast
    exact Pattern.newline_notMem_take_hit hline hhit hmem

/-- If a pattern fits at a place of a free stretch, then the search finds something at or
before this place, in front of the limit. -/
theorem Free.exists_mem_findsBefore {matcher : Matcher}
    (hline : matcher.pattern.WithinLine) (hmatcher : matcher ∈ textMatchers matchers)
    (hfree : Free matchers behind free fenced) (hsplit : gap ++ rest = free ++ fenced)
    (hgap : gap.length < free.length) (hhit : matcher.pattern.hit? rest ≠ none) :
    ∃ candidate, (matcher, candidate) ∈
        findsBefore matchers behind (free ++ fenced) (behind ++ free).length ∧
      Candidate.next? matcher.pattern ⟨behind.length, free ++ fenced⟩ = some candidate ∧
      candidate.start ≤ (behind ++ gap).length := by
  have hdrop : (free ++ fenced).drop gap.length = rest := by rw [← hsplit, List.drop_left]
  cases hnext : Candidate.next? matcher.pattern ⟨behind.length, free ++ fenced⟩ with
  | none =>
    have hnone := Pattern.next?_eq_none_iff.mp hnext gap.length
    rw [hdrop] at hnone
    exact absurd hnone hhit
  | some candidate =>
    obtain ⟨gap', rest', hahead, hstart, hhit', hbefore⟩ := Candidate.exists_gap_of_next? hnext
    have hle : gap'.length ≤ gap.length := by
      by_contra hlt
      have hnone := hbefore gap.length (by omega)
      rw [hdrop] at hnone
      exact hhit hnone
    have hstop := hfree.hit_le hline
      (by rw [← List.append_assoc]; exact hahead.symm) (by omega) hhit'
    simp only at hstart hstop
    have hfits : candidate.fitsBefore (behind ++ free).length = true := by
      simp only [Candidate.fitsBefore, Candidate.stop, Bool.and_eq_true, decide_eq_true_eq,
        List.length_append]
      omega
    refine ⟨candidate, ?_, rfl, by rw [hstart, List.length_append]; omega⟩
    rw [findsBefore, List.mem_filter, mem_finds]
    exact ⟨⟨hmatcher, hnext⟩, hfits⟩

end Free

/-! ## The best find and the longest hit -/

/-- The hits at a place are those of the rules for text. -/
theorem mem_hitsAt {matchers : List Matcher} {t : Text} {entry : Matcher × Hit} :
    entry ∈ hitsAt matchers t ↔
      entry.1 ∈ textMatchers matchers ∧ entry.1.pattern.hit? t = some entry.2 := by
  obtain ⟨matcher, hit⟩ := entry
  simp only [hitsAt, List.mem_filterMap, Option.map_eq_some_iff, Prod.mk.injEq]
  constructor
  · rintro ⟨m, hm, h, hh, rfl, rfl⟩
    exact ⟨hm, hh⟩
  · rintro ⟨hm, hh⟩
    exact ⟨matcher, hm, hit, hh, rfl, rfl⟩

/-- No hit at a place takes more characters than there are. -/
theorem length_le_of_mem_hitsAt {matchers : List Matcher} {t : Text} :
    ∀ entry ∈ hitsAt matchers t, entry.2.length ≤ t.length :=
  fun _ hentry => Pattern.hit?_length_le (mem_hitsAt.mp hentry).2

namespace Candidate

/-- Among hits at the same place the best find is the first of the longest. -/
theorem best?_map_toCandidate {hits : List (Matcher × Hit)} {t : Text}
    (h : ∀ entry ∈ hits, entry.2.length ≤ t.length) (behind : Text) :
    best? (hits.map fun entry => (entry.1, entry.2.toCandidate behind t))
      = (hits.argmax (·.2.length)).map fun entry => (entry.1, entry.2.toCandidate behind t) := by
  induction hits with
  | nil => rfl
  | cons first others ih =>
    obtain ⟨hfirst, hothers⟩ := List.forall_mem_cons.mp h
    rw [List.map_cons, best?, List.argmax_cons, ih hothers]
    cases hbest : others.argmax (·.2.length) with
    | none => rfl
    | some other =>
      have hother := hothers other (List.argmax_mem hbest)
      have hbeats : beats (other.2.toCandidate behind t) (first.2.toCandidate behind t)
          = decide (first.2.length < other.2.length) := by
        simp [beats, Hit.toCandidate, List.length_take_of_le hfirst,
          List.length_take_of_le hother]
      simp only [Option.map_some, hbeats, decide_eq_true_eq]
      split <;> rfl

end Candidate

section Free

variable {matchers : List Matcher} {behind free fenced gap rest : Text}

/-- If nothing is found in front of a place, a hit at this place is the next find of its
rule, and it ends in front of the limit. -/
theorem Free.next?_of_hit? {matcher : Matcher} {hit : Hit}
    (hline : matcher.pattern.WithinLine) (hmatcher : matcher ∈ textMatchers matchers)
    (hfree : Free matchers behind free fenced) (hsplit : gap ++ rest = free ++ fenced)
    (hgap : gap.length < free.length)
    (hbefore : ∀ entry ∈ findsBefore matchers behind (free ++ fenced) (behind ++ free).length,
      (behind ++ gap).length ≤ entry.2.start)
    (hhit : matcher.pattern.hit? rest = some hit) :
    Candidate.next? matcher.pattern ⟨behind.length, free ++ fenced⟩
        = some (hit.toCandidate (behind ++ gap) rest) ∧
      (hit.toCandidate (behind ++ gap) rest).fitsBefore (behind ++ free).length = true := by
  obtain ⟨candidate, hmem, hnext, hle⟩ := hfree.exists_mem_findsBefore hline hmatcher
    hsplit hgap (by rw [hhit]; simp)
  have hfits := (List.mem_filter.mp hmem).2
  have hstart : candidate.start = (behind ++ gap).length :=
    Nat.le_antisymm hle (hbefore _ hmem)
  obtain ⟨s, hit', hhit', -, rfl⟩ := Pattern.next?_eq_some_iff.mp hnext
  have hs : s = gap.length := by
    simp only [List.length_append] at hstart
    omega
  have hdrop : (free ++ fenced).drop s = rest := by rw [← hsplit, hs, List.drop_left]
  simp only [hdrop] at hhit' hnext hfits hstart
  rw [hhit, Option.some.injEq] at hhit'
  subst hhit'
  rw [Hit.toCandidate, ← hstart]
  exact ⟨hnext, hfits⟩

/-- If nothing is found in front of a place, the finds that begin there are the hits at
this place. -/
theorem Free.filter_findsBefore (hline : ∀ matcher ∈ matchers, matcher.pattern.WithinLine)
    (hfree : Free matchers behind free fenced) (hsplit : gap ++ rest = free ++ fenced)
    (hgap : gap.length < free.length)
    (hbefore : ∀ entry ∈ findsBefore matchers behind (free ++ fenced) (behind ++ free).length,
      (behind ++ gap).length ≤ entry.2.start) :
    (findsBefore matchers behind (free ++ fenced) (behind ++ free).length).filter
        (·.2.start = (behind ++ gap).length)
      = (hitsAt matchers rest).map fun entry =>
          (entry.1, entry.2.toCandidate (behind ++ gap) rest) := by
  rw [findsBefore, finds, List.filter_filterMap, List.filter_filterMap, hitsAt,
    List.map_filterMap]
  refine List.filterMap_congr fun matcher hmatcher => ?_
  have hwithin := hline matcher (List.mem_of_mem_filter hmatcher)
  cases hhit : matcher.pattern.hit? rest with
  | none =>
    cases hnext : Candidate.next? matcher.pattern ⟨behind.length, free ++ fenced⟩ with
    | none => rfl
    | some candidate =>
      -- the next find of this rule begins elsewhere, so it is filtered out
      obtain ⟨s, hit, hhit', -, rfl⟩ := Pattern.next?_eq_some_iff.mp hnext
      have hne : s ≠ gap.length := by
        rintro rfl
        simp only [← hsplit, List.drop_left, hhit] at hhit'
        exact absurd hhit' (by simp)
      simp only [Option.map_some, Option.map_none, Option.filter_some]
      split
      · simp [hne]
      · rfl
  | some hit =>
    obtain ⟨hnext, hfits⟩ :=
      hfree.next?_of_hit? hwithin hmatcher hsplit hgap hbefore hhit
    rw [hnext, Option.map_some, Option.filter_some, if_pos hfits, Option.filter_some,
      if_pos (by simp [Hit.toCandidate]), Option.map_some, Option.map_some]

/-- Where nothing is found up to a place of a free stretch, there are no events in front
of this place. -/
theorem Free.eventAt?_eq_none (hline : ∀ matcher ∈ matchers, matcher.pattern.WithinLine)
    (hfree : Free matchers behind free fenced) (hsplit : gap ++ rest = free ++ fenced)
    (hgap : gap.length ≤ free.length)
    (hbefore : ∀ entry ∈ findsBefore matchers behind (free ++ fenced) (behind ++ free).length,
      (behind ++ gap).length ≤ entry.2.start) :
    ∀ before after, gap = before ++ after → after ≠ [] →
      eventAt? matchers (behind ++ before) (after ++ rest) = none := by
  intro before after heq hafter
  have hpos := List.length_pos_of_ne_nil hafter
  have hlength := congrArg List.length heq
  rw [List.length_append] at hlength
  have hsplit' : before ++ (after ++ rest) = free ++ fenced := by
    rw [← hsplit, heq, List.append_assoc]
  have hhits : hitsAt matchers (after ++ rest) = [] := by
    rw [hitsAt, List.filterMap_eq_nil_iff]
    intro matcher hmatcher
    rw [Option.map_eq_none_iff]
    by_contra hhit
    have hwithin := hline matcher (List.mem_of_mem_filter hmatcher)
    obtain ⟨candidate, hmem, -, hle⟩ :=
      hfree.exists_mem_findsBefore hwithin hmatcher hsplit' (by omega) hhit
    have hge := hbefore _ hmem
    simp only [List.length_append] at hle hge
    omega
  rw [eventAt?, hfree.claimAt?_eq_none hsplit' (by omega), hhits]
  rfl

/-- The best find in front of the limit is the event at its place. -/
theorem Free.eventAt?_of_best? {matcher : Matcher} {candidate : Candidate}
    (hline : ∀ matcher ∈ matchers, matcher.pattern.WithinLine)
    (hfree : Free matchers behind free fenced) (hsplit : gap ++ rest = free ++ fenced)
    (hbest : Candidate.best?
      (findsBefore matchers behind (free ++ fenced) (behind ++ free).length)
        = some (matcher, candidate))
    (hstart : candidate.start = (behind ++ gap).length) :
    eventAt? matchers (behind ++ gap) rest = some (.found matcher candidate) := by
  have hle := Candidate.start_le_of_best? hbest
  have hgap : gap.length < free.length := by
    have hlt := (mem_findsBefore (Candidate.mem_of_best? hbest)).2.1
    rw [hstart, List.length_append, List.length_append] at hlt
    omega
  have hfilter := Candidate.best?_filter hbest
  simp only [hstart] at hle hfilter
  rw [hfree.filter_findsBefore hline hsplit hgap hle] at hfilter
  rw [Candidate.best?_map_toCandidate length_le_of_mem_hitsAt, Option.map_eq_some_iff] at hfilter
  obtain ⟨entry, hentry, heq⟩ := hfilter
  rw [Prod.mk.injEq] at heq
  rw [eventAt?, hfree.claimAt?_eq_none hsplit hgap]
  simp only
  rw [hentry, Option.map_some, heq.1, heq.2]

end Free

/-! ## The same stretches -/

/-- A claim on the line that begins here is the event here. -/
theorem eventAt?_of_claim {matchers : List Matcher} {behind t : Text} {claim : Claim}
    (hends : behind.endsLine = true)
    (hclaim : Claim.ofLine? (lineMatchers matchers) ⟨behind.length, t.firstLine⟩ = some claim) :
    eventAt? matchers behind t = some (.claimed claim) := by
  rw [eventAt?, claimAt?_eq, if_pos hends, hclaim]

/-- **The strides of a sweep make the stretches of the plain walk.** -/
theorem Strides.eq_plainFrom {matchers : List Matcher} {behind ahead : Text}
    {stretches : List Stretch} (hsolid : ∀ matcher ∈ matchers, matcher.pattern.Solid)
    (hline : ∀ matcher ∈ matchers, matcher.pattern.WithinLine)
    (h : Strides matchers behind ahead stretches) :
    stretches = plainFrom matchers 0 [] behind ahead := by
  induction h with
  | done behind => rfl
  | @stride behind passed rest made later hpassed first _ ih =>
    cases first with
    | @claimed _ _ claim begins line claims =>
      obtain ⟨heq, -⟩ := Claim.ofLine?_eq_some claims
      have hspan : (Stretch.claimed claim).span = passed := by rw [Stretch.span, heq]
      have hevent : eventAt? matchers behind (passed ++ rest) = some (.claimed claim) :=
        eventAt?_of_claim begins (by rw [line]; exact claims)
      rw [plainFrom_event hevent hspan hpassed, ih]
      rfl
    | kept isFree nothing =>
      -- all of the free text joins the run, and the fence ends the run
      have hfence : rest = [] ∨ eventAt? matchers (behind ++ passed) rest ≠ none := by
        rcases isFree.fence with hnil | ⟨hends, claim, hclaim⟩
        · exact Or.inl hnil
        · refine Or.inr ?_
          rw [eventAt?_of_claim hends hclaim]
          exact Option.some_ne_none _
      have hquiet := isFree.eventAt?_eq_none hline rfl (Nat.le_refl _)
        (by rw [nothing]; exact fun entry hentry => absurd hentry List.not_mem_nil)
      rw [plainFrom_quiet hquiet, List.nil_append, plainFrom_flush hfence, ih, Stretch.keeping,
        if_neg hpassed]
    | @found gap span _ free fenced matcher groups isFree ahead best =>
      -- the gap joins the run, and the best find is the event right behind it
      have hmem := Candidate.mem_of_best? best
      have hlt := (mem_findsBefore hmem).2.1
      have hspan : span ≠ [] := text_ne_nil_of_mem_findsBefore hsolid hmem
      have hsplit : gap ++ (span ++ rest) = free ++ fenced := by
        rw [← List.append_assoc]
        exact ahead
      have hevent := isFree.eventAt?_of_best? hline hsplit best rfl
      have hgap : gap.length ≤ free.length := by
        simp only [List.length_append] at hlt
        omega
      have hquiet := isFree.eventAt?_eq_none hline hsplit hgap (Candidate.start_le_of_best? best)
      rw [List.append_assoc gap span rest, plainFrom_quiet hquiet, List.nil_append,
        plainFrom_event hevent rfl hspan, ih, List.append_assoc, List.append_assoc]
      rfl

/-- The stretches that a sweep cuts a source into are those of the plain walk. -/
theorem cut_eq_plainFrom {matchers : List Matcher}
    (hsolid : ∀ matcher ∈ matchers, matcher.pattern.Solid)
    (hline : ∀ matcher ∈ matchers, matcher.pattern.WithinLine) (source : Text) :
    cut matchers source = plainFrom matchers 0 [] [] source :=
  (strides_cut hsolid source).eq_plainFrom hsolid hline

/-- **A sweep makes the segments of the plain walk**, whatever the rule list and the
source are. -/
theorem sweep_eq_plainSweep {list : Text} {set : RuleSet} (h : RuleSet.ofList list = .ok set)
    (source : Text) : sweep set.matchers source = plainSweep set.matchers source := by
  rw [sweep_eq_map_segment, plainSweep,
    cut_eq_plainFrom (RuleSet.solid_of_ofList h) (RuleSet.withinLine_of_ofList h)]

/-- The longer hit of a later rule is taken, and in a claimed line nothing else is looked
for. -/
theorem sweep_eq_plainSweep_longer_hit :
    ∃ set,
      RuleSet.ofList "a[num]\na[num]b///<[num]>\n[line]x///y".toList = .ok set ∧
      sweep set.matchers "a1 a12b\na3x\n".toList = plainSweep set.matchers "a1 a12b\na3x\n".toList ∧
      plainSweep set.matchers "a1 a12b\na3x\n".toList
        = [⟨.added, "a1".toList⟩, ⟨.kept, " ".toList⟩, ⟨.replaced, "<12>".toList⟩,
            ⟨.kept, "\n".toList⟩, ⟨.replaced, "y\n".toList⟩] := by
  have hsegments :
      (RuleSet.ofList "a[num]\na[num]b///<[num]>\n[line]x///y".toList).map
          (fun set => plainSweep set.matchers "a1 a12b\na3x\n".toList)
        = .ok [⟨.added, "a1".toList⟩, ⟨.kept, " ".toList⟩, ⟨.replaced, "<12>".toList⟩,
            ⟨.kept, "\n".toList⟩, ⟨.replaced, "y\n".toList⟩] := by decide
  cases hset : RuleSet.ofList "a[num]\na[num]b///<[num]>\n[line]x///y".toList with
  | error e =>
    rw [hset] at hsegments
    exact absurd hsegments (by simp [Except.map])
  | ok set =>
    rw [hset, Except.map, Except.ok.injEq] at hsegments
    exact ⟨set, rfl, sweep_eq_plainSweep hset _, hsegments⟩

end RuleSweep
