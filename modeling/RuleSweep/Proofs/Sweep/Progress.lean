/-
# A sweep comes to its end

A sweep makes steps until its head is at the end of the source.  `Walk.Runs` is this loop
without any bound on the steps.  Every step takes at least one character, because no pattern of a
rule fits the empty text, and none goes past a claimed line that is still to come.  So there are at
most as many steps as the source has characters, the last of them ends where the source ends, and
every claimed line has been handled once: `Walk.runs_start`.
-/
import RuleSweep.Proofs.Sweep.Newlines

namespace RuleSweep

namespace Walk

/-! ## The loop -/

/-- From the first walk a number of steps, each of them made in front of the end of the source,
leads to the second one and makes some stretches. -/
inductive Runs : Walk → (steps : Nat) → List Stretch → Walk → Prop
  /-- No step is made. -/
  | here (walk : Walk) : Runs walk 0 [] walk
  /-- One step is made, and then others. -/
  | step {walk last : Walk} {steps : Nat} {later : List Stretch}
      (goesOn : walk.head.position < walk.size) (others : Runs walk.step.2 steps later last) :
      Runs walk (steps + 1) (walk.step.1 ++ later) last

/-- What holds of the loop after some steps that made some stretches, when all `claims` are to be
handled. -/
structure OnTheWay (source : Text) (claims : List Claim) (steps : Nat) (made : List Stretch)
    (walk : Walk) : Prop where
  /-- The steps are no more than the characters behind the head. -/
  steps_le : steps ≤ walk.head.position
  /-- The head is not behind the end of the source. -/
  position_le : walk.head.position ≤ source.length
  /-- The head is not behind the beginning of a claimed line that is still to be handled. -/
  le_start : ∀ claim ∈ walk.claims, walk.head.position ≤ claim.line.start
  /-- The claims that have been handled and those that are still to be handled are all claims, in
  their order. -/
  claims : made.filterMap Stretch.claim? ++ walk.claims = claims
  /-- In front of the end the loop goes on, and the next step moves the head on. -/
  moves : walk.head.position < source.length →
    walk.head.position < walk.size ∧ walk.head.position < walk.step.2.head.position

variable {matchers : List Matcher} {behind : Text} {walk last : Walk} {steps : Nat}
  {made : List Stretch}

/-! ## One step -/

/-- In front of the end there is text ahead. -/
theorem Sound.ahead_ne_nil_iff (h : Sound matchers behind walk) :
    walk.head.ahead ≠ [] ↔ walk.head.position < walk.size := by
  rw [h.size, h.position, List.length_append, ← List.length_pos_iff]
  omega

/-- A step passes some text, which is not empty, and then the sweep still knows where it is. -/
theorem Sound.exists_passed (hsolid : ∀ matcher ∈ matchers, matcher.pattern.Solid)
    (h : Sound matchers behind walk) (hne : walk.head.ahead ≠ []) :
    ∃ passed, passed ≠ [] ∧ walk.head.ahead = passed ++ walk.step.2.head.ahead ∧
      Stride matchers behind passed walk.step.2.head.ahead walk.step.1 ∧
      Sound matchers (behind ++ passed) walk.step.2 := by
  obtain ⟨passed, rest, made, walk', hstep, hahead, hrest, hstride, hsound⟩ := h.step hne
  have hpassed := hstride.passed_ne_nil hsolid (hahead ▸ hne)
  subst hrest
  rw [hstep]
  exact ⟨passed, hpassed, hahead, hstride, hsound⟩

/-- A step moves the head on. -/
theorem Sound.position_lt (hsolid : ∀ matcher ∈ matchers, matcher.pattern.Solid)
    (h : Sound matchers behind walk) (hne : walk.head.ahead ≠ []) :
    walk.head.position < walk.step.2.head.position := by
  obtain ⟨passed, hpassed, -, -, hsound⟩ := h.exists_passed hsolid hne
  have hpos := List.length_pos_of_ne_nil hpassed
  rw [hsound.position, h.position, List.length_append]
  omega

/-- A pattern that fits the empty text would keep the head where it is. -/
example : (start [⟨⟨[], .text, .mark, 1, []⟩, ⟨[[]]⟩, []⟩] "a".toList).step.2.head
    = ⟨0, "a".toList⟩ := by decide

/-! ## All steps -/

/-- The steps of a loop pass some text, at least a character each, and handle the claims on the
lines that begin in it; then the sweep still knows where it is. -/
theorem Runs.exists_passed (hsolid : ∀ matcher ∈ matchers, matcher.pattern.Solid)
    (hruns : Runs walk steps made last) (h : Sound matchers behind walk) :
    ∃ passed, walk.head.ahead = passed ++ last.head.ahead ∧ steps ≤ passed.length ∧
      Sound matchers (behind ++ passed) last ∧
      walk.claims = made.filterMap Stretch.claim? ++ last.claims := by
  induction hruns generalizing behind with
  | here walk => exact ⟨[], rfl, Nat.le_refl 0, by rwa [List.append_nil], rfl⟩
  | @step walk last steps later goesOn _ ih =>
    have hne := h.ahead_ne_nil_iff.mpr goesOn
    obtain ⟨first, hfirst, hahead, hstride, hsound⟩ := h.exists_passed hsolid hne
    obtain ⟨others, hothers, hsteps, hlast, hclaims⟩ := ih hsound
    have hpos := List.length_pos_of_ne_nil hfirst
    have hhandled := hstride.claims hfirst
    rw [← hahead, ← h.claims, ← hsound.claims] at hhandled
    refine ⟨first ++ others, ?_, ?_, ?_, ?_⟩
    · rw [hahead, hothers, List.append_assoc]
    · rw [List.length_append]
      omega
    · rwa [← List.append_assoc]
    · rw [hhandled, hclaims, List.filterMap_append, List.append_assoc]

/-- Wherever the loop has come to from the beginning of a sweep, it is on its way. -/
theorem Runs.onTheWay (hsolid : ∀ matcher ∈ matchers, matcher.pattern.Solid) {source : Text}
    (hruns : Runs (start matchers source) steps made walk) :
    OnTheWay source (Claim.ofSource (lineMatchers matchers) source) steps made walk := by
  obtain ⟨passed, hahead, hsteps, hsound, hclaims⟩ :=
    hruns.exists_passed hsolid (sound_start matchers source)
  have hsource : source = passed ++ walk.head.ahead := hahead
  rw [List.nil_append] at hsound
  constructor
  · rw [hsound.position]
    exact hsteps
  · rw [hsound.position, hsource, List.length_append]
    exact Nat.le_add_right _ _
  · intro claim hclaim
    rw [hsound.claims, Claim.mem_ahead] at hclaim
    rw [hsound.position]
    exact Line.length_le_start_of_mem_ahead hclaim.1
  · exact hclaims.symm
  · intro hlt
    have hgoesOn : walk.head.position < walk.size := by rwa [hsound.size, ← hsource]
    exact ⟨hgoesOn, hsound.position_lt hsolid (hsound.ahead_ne_nil_iff.mpr hgoesOn)⟩

/-- From wherever a sweep is and knows it, the loop comes to the end of the source, and makes what
a bounded number of steps makes if the bound is not below the number of characters ahead. -/
theorem Sound.exists_runs (hsolid : ∀ matcher ∈ matchers, matcher.pattern.Solid)
    (h : Sound matchers behind walk) {limit : Nat} (hlimit : walk.head.ahead.length ≤ limit) :
    ∃ steps last, Runs walk steps (stretches limit walk) last ∧ last.head.ahead = [] := by
  induction limit generalizing behind walk with
  | zero =>
    have hnil := List.length_eq_zero_iff.mp (Nat.le_zero.mp hlimit)
    exact ⟨0, walk, .here walk, hnil⟩
  | succ limit ih =>
    rw [stretches_succ]
    by_cases hgoesOn : walk.head.position < walk.size
    · obtain ⟨passed, hpassed, hahead, -, hsound⟩ :=
        h.exists_passed hsolid (h.ahead_ne_nil_iff.mpr hgoesOn)
      have hpos := List.length_pos_of_ne_nil hpassed
      rw [hahead, List.length_append] at hlimit
      obtain ⟨steps, last, hruns, hlast⟩ := ih hsound (by omega)
      rw [if_pos hgoesOn]
      exact ⟨steps + 1, last, .step hgoesOn hruns, hlast⟩
    · have hnil := mt h.ahead_ne_nil_iff.mp hgoesOn
      rw [if_neg hgoesOn]
      exact ⟨0, walk, .here walk, not_not.mp hnil⟩

/-! ## The whole loop -/

/-- **A sweep comes to its end.**  No pattern that a search text gives fits the empty text.  So,
for matchers of any rules, every step of the loop moves the head on, but neither behind the end of
the source nor behind the beginning of a claimed line that is still to be handled.  After at most
as many steps as the source has characters the loop has made the stretches of the sweep and is at
the end of the source, and every claimed line has been handled once, in order. -/
theorem runs_start {rules : List Rule} {matchers : List Matcher}
    (h : rules.mapM Matcher.ofRule = .ok matchers) (source : Text) :
    (∀ search pattern, Pattern.ofSearch? search = some pattern →
      ∀ t hit, pattern.hit? t = some hit → 0 < hit.length) ∧
    (∀ steps made walk, Runs (start matchers source) steps made walk →
      OnTheWay source (Claim.ofSource (lineMatchers matchers) source) steps made walk) ∧
    (∃ steps ≤ source.length, ∃ last,
      Runs (start matchers source) steps (cut matchers source) last ∧
      last.head.position = source.length ∧ last.claims = []) ∧
    (cut matchers source).filterMap Stretch.claim?
      = Claim.ofSource (lineMatchers matchers) source ∧
    (Claim.ofSource (lineMatchers matchers) source).Pairwise fun claim later =>
      claim.line.start < later.line.start := by
  have hsolid := Matcher.solid_of_mapM_ofRule h
  refine ⟨?_, fun _ _ _ hruns => hruns.onTheWay hsolid, ?_, claims_cut hsolid source, ?_⟩
  · intro search pattern hpattern t hit hhit
    exact Pattern.hit?_pos (Pattern.solid_of_ofSearch? hpattern) hhit
  · obtain ⟨steps, last, hruns, hlast⟩ :=
      (sound_start matchers source).exists_runs hsolid (Nat.le_refl source.length)
    obtain ⟨passed, hahead, hsteps, hsound, -⟩ :=
      hruns.exists_passed hsolid (sound_start matchers source)
    have hpassed : source = passed := by
      rw [hlast, List.append_nil] at hahead
      exact hahead
    refine ⟨steps, hpassed ▸ hsteps, last, hruns, ?_, ?_⟩
    · rw [hsound.position, List.nil_append, hpassed]
    · rw [hsound.claims, hlast]
      rfl
  · rw [Claim.ofSource_eq_ahead]
    exact Claim.pairwise_ahead _ _ _

/-- One find ends where a claimed line begins; another one, which would reach into that line, is
dropped.  Three steps are enough for six characters, and two of them handle a claimed line. -/
theorem runs_start_three_steps :
    ∃ matchers,
      [⟨"\nY".toList, .text, .mark, 1, "\nY".toList⟩, ⟨"a\n".toList, .text, .mark, 2, "a\n".toList⟩,
        ⟨"[line]Y".toList, .line, .mark, 3, "[line]Y".toList⟩].mapM Matcher.ofRule = .ok matchers ∧
      (start matchers "ba\nY\nY".toList).step.2.head = ⟨3, "Y\nY".toList⟩ ∧
      (start matchers "ba\nY\nY".toList).step.2.step.2.head = ⟨5, "Y".toList⟩ ∧
      (∃ steps ≤ 6, ∃ last,
        Runs (start matchers "ba\nY\nY".toList) steps (cut matchers "ba\nY\nY".toList) last ∧
        last.head.position = 6 ∧ last.claims = []) ∧
      ((cut matchers "ba\nY\nY".toList).filterMap Stretch.claim?).map (·.line)
        = [⟨3, "Y\n".toList⟩, ⟨5, "Y".toList⟩] := by
  have h : [⟨"\nY".toList, .text, .mark, 1, "\nY".toList⟩,
      ⟨"a\n".toList, .text, .mark, 2, "a\n".toList⟩,
      ⟨"[line]Y".toList, .line, .mark, 3, "[line]Y".toList⟩].mapM Matcher.ofRule
      = .ok
        [⟨⟨"\nY".toList, .text, .mark, 1, "\nY".toList⟩, ⟨[[.char '\n', .char 'Y']]⟩, []⟩,
          ⟨⟨"a\n".toList, .text, .mark, 2, "a\n".toList⟩, ⟨[[.char 'a', .char '\n']]⟩, []⟩,
          ⟨⟨"[line]Y".toList, .line, .mark, 3, "[line]Y".toList⟩, ⟨[[.char 'Y']]⟩, []⟩] := by
    decide
  obtain ⟨-, -, hends, -, -⟩ := runs_start h "ba\nY\nY".toList
  exact ⟨_, h, by decide, by decide, hends, by decide⟩

end Walk

end RuleSweep
