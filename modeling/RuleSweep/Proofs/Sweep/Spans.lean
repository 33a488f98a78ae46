/-
# Spans depend on the searches alone

Two lists of rules that search for the same texts in the same scopes, in whatever order and
however often, and whatever they put in the place of what they find, cut a source into the
same spans, and they find something in the same ones of them.  The order and the
replacements only decide what becomes of a span.

Strides of two such lists from the same place pass the same text (`Stride.alike`): the same
lines are claimed, so the same text is free, and the finds in it are the same, so the best
ones begin at the same place and are of the same length.  From this it follows for whole
sweeps by induction on the strides (`Strides.alike`).  The main statement is `sweep_alike`.
-/
import RuleSweep.Proofs.Sweep.Partition

namespace RuleSweep

/-! ## The same searches -/

/-- The texts that the rules of a scope search for. -/
def Rule.bodies (scope : Scope) (rules : List Rule) : List Text :=
  (rules.filter (·.scope = scope)).map Rule.body

/-- Every search of some matchers is also a search of others. -/
def SearchesAmong (matchers others : List Matcher) : Prop :=
  ∀ matcher ∈ matchers, ∃ other ∈ others,
    other.rule.scope = matcher.rule.scope ∧ other.pattern = matcher.pattern

/-- Two lists of matchers search for the same patterns in the same scopes. -/
structure SameSearches (matchers others : List Matcher) : Prop where
  /-- The others search for all that the first ones search for. -/
  among : SearchesAmong matchers others
  /-- The first ones search for all that the others search for. -/
  amongConverse : SearchesAmong others matchers

/-- The matchers of rules with bodies among those of other rules have searches among
theirs. -/
theorem searchesAmong_of_bodies {rules others : List Rule} {matchers matchers' : List Matcher}
    (h : rules.mapM Matcher.ofRule = .ok matchers)
    (h' : others.mapM Matcher.ofRule = .ok matchers')
    (hbodies : ∀ scope, ∀ body ∈ Rule.bodies scope rules, body ∈ Rule.bodies scope others) :
    SearchesAmong matchers matchers' := by
  intro matcher hmatcher
  obtain ⟨rule, hrule, hof⟩ := Matcher.exists_rule_of_mapM_ofRule h matcher hmatcher
  have hbody : rule.body ∈ Rule.bodies rule.scope rules :=
    List.mem_map_of_mem (List.mem_filter.mpr ⟨hrule, by simp⟩)
  obtain ⟨other, hother, heq⟩ := List.mem_map.mp (hbodies rule.scope rule.body hbody)
  obtain ⟨hother, hscope⟩ := List.mem_filter.mp hother
  obtain ⟨matcher', hmatcher', hof'⟩ := Matcher.exists_matcher_of_mapM_ofRule h' other hother
  obtain ⟨hrule, hpattern⟩ := Matcher.of_ofRule hof
  obtain ⟨hrule', hpattern'⟩ := Matcher.of_ofRule hof'
  refine ⟨matcher', hmatcher', ?_, ?_⟩
  · rw [hrule', hrule]
    simpa using hscope
  · rw [heq, hpattern, Option.some.injEq] at hpattern'
    exact hpattern'.symm

namespace SearchesAmong

variable {matchers others : List Matcher}

/-- The same holds of the matchers of one scope. -/
theorem exists_mem_filter (h : SearchesAmong matchers others) {scope : Scope} {matcher : Matcher}
    (hmatcher : matcher ∈ matchers.filter (·.rule.scope = scope)) :
    ∃ other ∈ others.filter (·.rule.scope = scope), other.pattern = matcher.pattern := by
  obtain ⟨hmem, hscope⟩ := List.mem_filter.mp hmatcher
  obtain ⟨other, hother, hscope', hpattern⟩ := h matcher hmem
  refine ⟨other, List.mem_filter.mpr ⟨hother, ?_⟩, hpattern⟩
  rwa [hscope']

/-- A line that is claimed is also claimed by one of the others. -/
theorem ofLine?_ne_none (h : SearchesAmong matchers others) {line : Line} {claim : Claim}
    (hclaim : Claim.ofLine? (lineMatchers matchers) line = some claim) :
    ∃ claim', Claim.ofLine? (lineMatchers others) line = some claim' := by
  obtain ⟨-, hmatcher, found, hfound, -⟩ := Claim.ofLine?_eq_some hclaim
  obtain ⟨other, hother, hpattern⟩ := h.exists_mem_filter hmatcher
  rw [← Option.ne_none_iff_exists']
  intro hnone
  have hother' := Claim.ofLine?_eq_none_iff.mp hnone other hother
  rw [hpattern, hfound] at hother'
  exact absurd hother' (by simp)

/-- A find in front of a limit is also one of the others. -/
theorem exists_mem_findsBefore (h : SearchesAmong matchers others) {behind ahead : Text}
    {limit : Nat} {entry : Matcher × Candidate}
    (hentry : entry ∈ findsBefore matchers behind ahead limit) :
    ∃ other, (other, entry.2) ∈ findsBefore others behind ahead limit := by
  rw [findsBefore, List.mem_filter, mem_finds] at hentry
  obtain ⟨⟨hmatcher, hnext⟩, hfits⟩ := hentry
  obtain ⟨other, hother, hpattern⟩ := h.exists_mem_filter hmatcher
  refine ⟨other, ?_⟩
  rw [findsBefore, List.mem_filter, mem_finds]
  exact ⟨⟨hother, by rw [hpattern, hnext]⟩, hfits⟩

/-- Where the others find nothing in front of a limit, nothing is found. -/
theorem findsBefore_eq_nil (h : SearchesAmong matchers others) {behind ahead : Text} {limit : Nat}
    (hnil : findsBefore others behind ahead limit = []) :
    findsBefore matchers behind ahead limit = [] := by
  rw [List.eq_nil_iff_forall_not_mem]
  intro entry hentry
  obtain ⟨other, hother⟩ := h.exists_mem_findsBefore hentry
  rw [hnil] at hother
  exact absurd hother List.not_mem_nil

/-- Free text of the others reaches at least as far: the claim that fences it in fences in
all free text that begins at the same place. -/
theorem length_free_le (h : SearchesAmong others matchers)
    {behind free fenced free' fenced' : Text} (hfree : Free matchers behind free fenced)
    (hfree' : Free others behind free' fenced') (heq : free ++ fenced = free' ++ fenced') :
    free.length ≤ free'.length := by
  rcases hfree'.fence with hnil | ⟨hends, claim, hclaim⟩
  · have hlength := congrArg List.length heq
    rw [hnil, List.length_append, List.append_nil] at hlength
    omega
  · by_contra hlt
    obtain ⟨claim', hclaim'⟩ := h.ofLine?_ne_none hclaim
    have hnone := hfree.ofLine?_eq_none heq.symm (by omega) hends
    rw [hclaim'] at hnone
    exact absurd hnone (by simp)

end SearchesAmong

namespace SameSearches

variable {matchers others : List Matcher}

/-- The same text is free. -/
theorem free_eq (h : SameSearches matchers others) {behind free fenced free' fenced' : Text}
    (hfree : Free matchers behind free fenced) (hfree' : Free others behind free' fenced')
    (heq : free ++ fenced = free' ++ fenced') : free = free' ∧ fenced = fenced' := by
  have hle := h.amongConverse.length_free_le hfree hfree' heq
  have hge := h.among.length_free_le hfree' hfree heq.symm
  exact List.append_inj heq (by omega)

/-- The best finds begin at the same place and are of the same length. -/
theorem best?_eq (h : SameSearches matchers others) {behind ahead : Text} {limit : Nat}
    {best best' : Matcher × Candidate}
    (hbest : Candidate.best? (findsBefore matchers behind ahead limit) = some best)
    (hbest' : Candidate.best? (findsBefore others behind ahead limit) = some best') :
    best.2.start = best'.2.start ∧ best.2.text.length = best'.2.text.length := by
  -- each of the two is also a find of the other list, and beats nothing there
  obtain ⟨other, hmem⟩ := h.among.exists_mem_findsBefore (Candidate.mem_of_best? hbest)
  obtain ⟨other', hmem'⟩ := h.amongConverse.exists_mem_findsBefore (Candidate.mem_of_best? hbest')
  have hle := Candidate.beats_eq_false_of_best? hbest' _ hmem
  have hge := Candidate.beats_eq_false_of_best? hbest _ hmem'
  rw [Candidate.beats_eq_false_iff] at hle hge
  simp only at hle hge
  omega

end SameSearches

/-! ## The same spans -/

/-- Two stretches have the same span, and something was found in both or in none. -/
def Stretch.Alike (stretch other : Stretch) : Prop :=
  stretch.span = other.span ∧ (stretch.segment.kind = .kept ↔ other.segment.kind = .kept)

section Alike

variable {matchers others : List Matcher} {behind : Text}

/-- Text that is kept makes stretches that are alike. -/
theorem Stretch.forall₂_alike_keeping (text : Text) :
    List.Forall₂ Stretch.Alike (keeping text) (keeping text) :=
  List.forall₂_same.mpr fun _ _ => ⟨rfl, Iff.rfl⟩

/-- Claims on the same line are alike. -/
theorem Claim.alike {claim claim' : Claim} (h : claim.line = claim'.line) :
    (Stretch.claimed claim).Alike (.claimed claim') := by
  refine ⟨congrArg Line.text h, ?_⟩
  rw [Stretch.segment, Stretch.segment, kind_segment, kind_segment]
  exact iff_of_false claim.matcher.kind_ne_kept claim'.matcher.kind_ne_kept

/-- Finds of the same text are alike. -/
theorem Candidate.alike {matcher matcher' : Matcher} {candidate candidate' : Candidate}
    (h : candidate.text = candidate'.text) :
    (Stretch.found matcher candidate).Alike (.found matcher' candidate') :=
  ⟨h, iff_of_false matcher.kind_ne_kept matcher'.kind_ne_kept⟩

/-- **Strides from the same place pass the same text** and make stretches that are alike, if
the searches are the same. -/
theorem Stride.alike {passed rest passed' rest' : Text} {made made' : List Stretch}
    (hsame : SameSearches matchers others) (h : Stride matchers behind passed rest made)
    (h' : Stride others behind passed' rest' made')
    (heq : passed ++ rest = passed' ++ rest') :
    passed = passed' ∧ List.Forall₂ Stretch.Alike made made' := by
  cases h with
  | @claimed _ _ claim begins line claims =>
    obtain ⟨other, hother⟩ := hsame.among.ofLine?_ne_none claims
    cases h' with
    | @claimed _ _ claim' _ line' claims' =>
      have hpassed : passed = passed' := by rw [← line, ← line', heq]
      refine ⟨hpassed, .cons (Claim.alike ?_) .nil⟩
      rw [(Claim.ofLine?_eq_some claims).1, (Claim.ofLine?_eq_some claims').1, hpassed]
    | kept isFree' _ => exact absurd isFree' (Free.not_of_claim begins hother (heq ▸ line))
    | found isFree' ahead' _ =>
      exact absurd isFree' (Free.not_of_claim begins hother (ahead' ▸ heq ▸ line))
  | kept isFree nothing =>
    cases h' with
    | claimed begins' line' claims' =>
      obtain ⟨other, hother⟩ := hsame.amongConverse.ofLine?_ne_none claims'
      exact absurd isFree (Free.not_of_claim begins' hother (heq ▸ line'))
    | kept isFree' _ =>
      obtain ⟨rfl, -⟩ := hsame.free_eq isFree isFree' heq
      exact ⟨rfl, .cons ⟨rfl, Iff.rfl⟩ .nil⟩
    | found isFree' ahead' best' =>
      obtain ⟨rfl, rfl⟩ := hsame.free_eq isFree isFree' (heq.trans ahead')
      rw [hsame.amongConverse.findsBefore_eq_nil nothing] at best'
      exact absurd best' (by simp [Candidate.best?])
  | @found gap span _ free fenced matcher groups isFree ahead best =>
    cases h' with
    | claimed begins' line' claims' =>
      obtain ⟨other, hother⟩ := hsame.amongConverse.ofLine?_ne_none claims'
      exact absurd isFree (Free.not_of_claim begins' hother (ahead ▸ heq ▸ line'))
    | kept isFree' nothing' =>
      obtain ⟨rfl, rfl⟩ := hsame.free_eq isFree isFree' (ahead.symm.trans heq)
      rw [hsame.among.findsBefore_eq_nil nothing'] at best
      exact absurd best (by simp [Candidate.best?])
    | @found gap' span' _ _ _ matcher' groups' isFree' ahead' best' =>
      obtain ⟨rfl, rfl⟩ :=
        hsame.free_eq isFree isFree' (ahead.symm.trans (heq.trans ahead'))
      -- the two finds begin behind gaps of the same length, and are of the same length
      obtain ⟨hstart, hlength⟩ := hsame.best?_eq best best'
      simp only [List.length_append] at hstart hlength
      obtain ⟨hpassed, -⟩ := List.append_inj heq
        (by rw [List.length_append, List.length_append]; omega)
      obtain ⟨rfl, rfl⟩ := List.append_inj hpassed (by omega)
      exact ⟨rfl, List.rel_append (Stretch.forall₂_alike_keeping gap)
        (.cons (Candidate.alike rfl) .nil)⟩

/-- **Sweeps with the same searches make stretches that are alike.** -/
theorem Strides.alike {ahead : Text} {stretches stretches' : List Stretch}
    (hsame : SameSearches matchers others) (h : Strides matchers behind ahead stretches)
    (h' : Strides others behind ahead stretches') :
    List.Forall₂ Stretch.Alike stretches stretches' := by
  induction h generalizing stretches' with
  | done behind =>
    generalize hahead : [] = ahead at h'
    cases h' with
    | done => exact .nil
    | stride hpassed' _ _ => exact absurd (List.append_eq_nil_iff.mp hahead.symm).1 hpassed'
  | @stride behind passed rest made later hpassed first _ ih =>
    generalize hahead : passed ++ rest = ahead at h'
    cases h' with
    | done => exact absurd (List.append_eq_nil_iff.mp hahead).1 hpassed
    | stride _ first' others' =>
      obtain ⟨rfl, hmade⟩ := first.alike hsame first' hahead
      obtain rfl := List.append_cancel_left hahead
      exact List.rel_append hmade (ih others')

end Alike

/-! ## Sweeps -/

/-- The two counters of a result count the segments that are not kept. -/
theorem Result.matchCount_add_replaceCount (segments : List Segment) (skipped : List Rule) :
    (assemble segments skipped).matchCount + (assemble segments skipped).replaceCount
      = segments.countP (·.kind ≠ .kept) := by
  rw [(counts_assemble segments skipped).1, (counts_assemble segments skipped).2]
  induction segments with
  | nil => rfl
  | cons segment segments ih =>
    rw [List.countP_cons, List.countP_cons, List.countP_cons, ← ih]
    cases segment.kind <;> simp <;> omega

/-- Segments that are kept in the same places have the same number of others. -/
theorem Segment.countP_eq {segments others : List Segment}
    (h : List.Forall₂ (fun segment other => segment.kind = .kept ↔ other.kind = .kept)
      segments others) :
    segments.countP (·.kind ≠ .kept) = others.countP (·.kind ≠ .kept) := by
  induction h with
  | nil => rfl
  | cons hkind _ ih => simp only [List.countP_cons, ih, ne_eq, hkind]

/-- **The spans of a sweep depend on the searches alone.**  If two lists of rules search for
the same texts in the same scopes, then their sweeps cut a source into the same spans, for
which the segments of both stand, and a segment of one is kept if and only if the segment of
the other is kept that stands for the same span.  So the counters of both results have the
same sum. -/
theorem sweep_alike {rules others : List Rule} {matchers matchers' : List Matcher}
    (h : rules.mapM Matcher.ofRule = .ok matchers)
    (h' : others.mapM Matcher.ofRule = .ok matchers')
    (hbodies : ∀ scope body, body ∈ Rule.bodies scope rules ↔ body ∈ Rule.bodies scope others)
    (source : Text) (skipped skipped' : List Rule) :
    (∃ spans : List Text, spans.flatten = source ∧
      (cut matchers source).map Stretch.span = spans ∧
      (cut matchers' source).map Stretch.span = spans ∧
      Tiles matchers [] spans (sweep matchers source) ∧
      Tiles matchers' [] spans (sweep matchers' source)) ∧
    List.Forall₂ (fun segment other => segment.kind = .kept ↔ other.kind = .kept)
      (sweep matchers source) (sweep matchers' source) ∧
    (Result.assemble (sweep matchers source) skipped).matchCount
        + (Result.assemble (sweep matchers source) skipped).replaceCount
      = (Result.assemble (sweep matchers' source) skipped').matchCount
        + (Result.assemble (sweep matchers' source) skipped').replaceCount := by
  have hsame : SameSearches matchers matchers' :=
    ⟨searchesAmong_of_bodies h h' fun scope body => (hbodies scope body).mp,
      searchesAmong_of_bodies h' h fun scope body => (hbodies scope body).mpr⟩
  have hsolid := Matcher.solid_of_mapM_ofRule h
  have hsolid' := Matcher.solid_of_mapM_ofRule h'
  have halike := (strides_cut hsolid source).alike hsame (strides_cut hsolid' source)
  have hspans : (cut matchers' source).map Stretch.span
      = (cut matchers source).map Stretch.span := by
    rw [eq_comm, ← List.forall₂_eq_eq_eq, List.forall₂_map_left_iff, List.forall₂_map_right_iff]
    exact halike.imp fun _ _ hstretch => hstretch.1
  have hkinds : List.Forall₂ (fun segment other => segment.kind = .kept ↔ other.kind = .kept)
      (sweep matchers source) (sweep matchers' source) := by
    rw [sweep_eq_map_segment, sweep_eq_map_segment, List.forall₂_map_left_iff,
      List.forall₂_map_right_iff]
    exact halike.imp fun _ _ hstretch => hstretch.2
  obtain ⟨hflatten, htiles⟩ := tiles_sweep hsolid source
  have htiles' := (tiles_sweep hsolid' source).2
  rw [hspans] at htiles'
  refine ⟨⟨_, hflatten, rfl, hspans, htiles, htiles'⟩, hkinds, ?_⟩
  rw [Result.matchCount_add_replaceCount, Result.matchCount_add_replaceCount,
    Segment.countP_eq hkinds]

/-- With the rules turned round, one of them repeated, and other replacements, other segments
stand for the same spans. -/
theorem sweep_alike_reordered :
    ∃ matchers matchers',
      (Rule.ofList "ab\na///1\n[line]x".toList).mapM Matcher.ofRule = .ok matchers ∧
      (Rule.ofList "[line]x///[del]\na///2\na\nab".toList).mapM Matcher.ofRule = .ok matchers' ∧
      sweep matchers "aab\nax\n".toList
        = [⟨.replaced, "1".toList⟩, ⟨.added, "ab".toList⟩, ⟨.kept, "\n".toList⟩,
            ⟨.added, "ax\n".toList⟩] ∧
      sweep matchers' "aab\nax\n".toList
        = [⟨.replaced, "2".toList⟩, ⟨.added, "ab".toList⟩, ⟨.kept, "\n".toList⟩,
            ⟨.replaced, []⟩] ∧
      (cut matchers "aab\nax\n".toList).map Stretch.span
        = (cut matchers' "aab\nax\n".toList).map Stretch.span := by
  have hsegments : ((Rule.ofList "ab\na///1\n[line]x".toList).mapM Matcher.ofRule).map
      (fun matchers => sweep matchers "aab\nax\n".toList)
        = .ok [⟨.replaced, "1".toList⟩, ⟨.added, "ab".toList⟩, ⟨.kept, "\n".toList⟩,
            ⟨.added, "ax\n".toList⟩] := by decide
  have hsegments' :
      ((Rule.ofList "[line]x///[del]\na///2\na\nab".toList).mapM Matcher.ofRule).map
        (fun matchers => sweep matchers "aab\nax\n".toList)
          = .ok [⟨.replaced, "2".toList⟩, ⟨.added, "ab".toList⟩, ⟨.kept, "\n".toList⟩,
              ⟨.replaced, []⟩] := by decide
  have hbodies : ∀ scope body,
      body ∈ Rule.bodies scope (Rule.ofList "ab\na///1\n[line]x".toList) ↔
        body ∈ Rule.bodies scope (Rule.ofList "[line]x///[del]\na///2\na\nab".toList) := by
    intro scope body
    have hamong : ∀ body ∈ Rule.bodies scope (Rule.ofList "ab\na///1\n[line]x".toList),
        body ∈ Rule.bodies scope (Rule.ofList "[line]x///[del]\na///2\na\nab".toList) := by
      cases scope <;> decide
    have hconverse :
        ∀ body ∈ Rule.bodies scope (Rule.ofList "[line]x///[del]\na///2\na\nab".toList),
          body ∈ Rule.bodies scope (Rule.ofList "ab\na///1\n[line]x".toList) := by
      cases scope <;> decide
    exact ⟨hamong body, hconverse body⟩
  cases h : (Rule.ofList "ab\na///1\n[line]x".toList).mapM Matcher.ofRule with
  | error fault =>
    rw [h] at hsegments
    exact absurd hsegments (by simp [Except.map])
  | ok matchers =>
    cases h' : (Rule.ofList "[line]x///[del]\na///2\na\nab".toList).mapM Matcher.ofRule with
    | error fault =>
      rw [h'] at hsegments'
      exact absurd hsegments' (by simp [Except.map])
    | ok matchers' =>
      rw [h, Except.map, Except.ok.injEq] at hsegments
      rw [h', Except.map, Except.ok.injEq] at hsegments'
      obtain ⟨⟨spans, -, hspans, hspans', -⟩, -⟩ :=
        sweep_alike h h' hbodies "aab\nax\n".toList [] []
      exact ⟨matchers, matchers', rfl, rfl, hsegments, hsegments', hspans.trans hspans'.symm⟩

end RuleSweep
