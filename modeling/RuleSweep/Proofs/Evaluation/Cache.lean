/-
# Runs of a cache

A cache is asked for rule sets and for evaluations, and is told to hold nothing any more,
in any order.  Whatever has been asked before, nobody can tell from an answer that there is
a cache: it answers as if every rule set were made anew (`Step.answer`).  What it holds is
told by the steps alone (`LastMade`): the rule set of the last rule list that was asked for
and could be made, unless nothing was to be held since.

`step_snd` lists what a step can do to any cache, and `run_append_singleton` adds a step at
the end of a run.  Both statements about runs go by induction on the run from its end:
`run_empty`.
-/
import Mathlib.Data.List.Induction
import RuleSweep.Evaluation.Cache

namespace RuleSweep

namespace Cache

/-! ## Steps and runs -/

/-- What a cache can be asked. -/
inductive Step where
  /-- The rule set of a rule list. -/
  | get (list : Text)
  /-- What a rule list answers on a source, by a given sweep. -/
  | evaluate (sweeper : Sweeper) (source list : Text)
  /-- To hold nothing any more. -/
  | invalidate

/-- What is answered to a step. -/
inductive Answer where
  /-- A rule set, or why there is none. -/
  | rules (answer : Except NumeralTooLong RuleSet)
  /-- A result, or why there is none. -/
  | result (answer : Except EvaluationFault Result)
  /-- That it is done. -/
  | done

/-- The answer to a step without a cache. -/
def Step.answer : Step → Answer
  | .get list => .rules (RuleSet.ofList list)
  | .evaluate sweeper source list => .result (RuleSweep.evaluateBy sweeper source list)
  | .invalidate => .done

/-- The rule list whose rule set a step needs.  On an empty source none is needed. -/
def Step.needs? : Step → Option Text
  | .get list => some list
  | .evaluate _ source list => if source.isEmpty then none else some list
  | .invalidate => none

/-- The answer to a step, and the cache behind it. -/
def step (cache : Cache) : Step → Answer × Cache
  | .get list => (.rules (cache.get list).1, (cache.get list).2)
  | .evaluate sweeper source list =>
    (.result (cache.evaluateBy sweeper source list).1, (cache.evaluateBy sweeper source list).2)
  | .invalidate => (.done, cache.invalidate)

/-- The answers to some steps, and the cache behind them. -/
def run (cache : Cache) : List Step → List Answer × Cache
  | [] => ([], cache)
  | first :: later =>
    let (answer, cache) := cache.step first
    let (answers, cache) := run cache later
    (answer :: answers, cache)

/-- Of some steps, the last one that needed a rule set which could be made needed the one of
this rule list, and behind it the cache was not told to hold nothing. -/
def LastMade (steps : List Step) (list : Text) (set : RuleSet) : Prop :=
  ∃ before step after, steps = before ++ step :: after ∧
    step.needs? = some list ∧ RuleSet.ofList list = .ok set ∧
    .invalidate ∉ after ∧
    ∀ later ∈ after, ∀ other, later.needs? = some other → ∃ e, RuleSet.ofList other = .error e

/-! ## One step -/

/-- What a cache holds is the rule set that its rule list gives. -/
def Right (cache : Cache) : Prop :=
  ∀ list set, cache.held = some (list, set) → RuleSet.ofList list = .ok set

section Step

variable {cache : Cache}

/-- Making a rule set anew answers it and holds it, and if it cannot be made, nothing
changes. -/
theorem renew_eq (cache : Cache) (list : Text) :
    cache.renew list = (RuleSet.ofList list,
      match RuleSet.ofList list with
      | .error _ => cache
      | .ok set => ⟨some (list, set)⟩) := by
  rw [renew]
  cases RuleSet.ofList list <;> rfl

/-- A cache that holds the rule set of this very list hands it out and stays as it is. -/
theorem get_of_held {list : Text} {set : RuleSet} (h : cache.held = some (list, set)) :
    cache.get list = (.ok set, cache) := by
  rw [get, h]
  exact if_pos rfl

/-- A cache that holds no rule set of this list makes it anew. -/
theorem get_of_list?_ne {list : Text} (h : cache.list? ≠ some list) :
    cache.get list = cache.renew list := by
  rw [get]
  cases hheld : cache.held with
  | none => rfl
  | some entry =>
    rw [list?, hheld] at h
    exact if_neg fun heq => h (congrArg some heq.symm)

/-- A cache holds a rule set of a list if it says so. -/
theorem exists_held_of_list? {list : Text} (h : cache.list? = some list) :
    ∃ set, cache.held = some (list, set) := by
  rw [list?, Option.map_eq_some_iff] at h
  obtain ⟨⟨heldList, set⟩, hheld, rfl⟩ := h
  exact ⟨set, hheld⟩

/-- An evaluation applies the rule set that the cache hands out. -/
theorem evaluateBy_of_ne_nil (sweeper : Sweeper) {source : Text} (h : source ≠ [])
    (list : Text) :
    cache.evaluateBy sweeper source list
      = (match (cache.get list).1 with
          | .error e => .error (.numeral e)
          | .ok set => set.apply sweeper source, (cache.get list).2) := by
  rw [evaluateBy, if_neg (by simpa using h)]
  rcases cache.get list with ⟨_ | _, _⟩ <;> rfl

/-- A step that needs a rule set does to the cache what handing out this rule set does. -/
theorem step_snd_of_needs? {step : Step} {list : Text} (h : step.needs? = some list) :
    (cache.step step).2 = (cache.get list).2 := by
  cases step with
  | get other => rw [Cache.step, Option.some.inj h]
  | evaluate sweeper source other =>
    rw [Step.needs?] at h
    split at h
    · exact absurd h (by simp)
    · next hsource =>
      rw [Cache.step, evaluateBy_of_ne_nil sweeper (by simpa using hsource),
        Option.some.inj h]
  | invalidate => exact absurd h (by simp [Step.needs?])

/-- A step that needs no rule set leaves the cache alone, unless it empties it. -/
theorem step_snd_of_needs?_eq_none {step : Step} (h : step.needs? = none)
    (hstep : step ≠ .invalidate) : (cache.step step).2 = cache := by
  cases step with
  | get list => exact absurd h (by simp [Step.needs?])
  | evaluate sweeper source list =>
    have hsource : source.isEmpty = true := by simpa [Step.needs?] using h
    rw [Cache.step, evaluateBy, if_pos hsource]
  | invalidate => exact absurd rfl hstep

/-- **What a step can do to a cache.**  It leaves it alone, or it empties it, or it puts a
rule set that has just been made in the place of one that was made from another list. -/
theorem step_snd (cache : Cache) (step : Step) :
    (cache.step step).2 = cache ∨
    (step = .invalidate ∧ (cache.step step).2 = empty) ∨
    ∃ list set, step.needs? = some list ∧ RuleSet.ofList list = .ok set ∧
      cache.list? ≠ some list ∧ (cache.step step).2 = ⟨some (list, set)⟩ := by
  by_cases hstep : step = .invalidate
  · subst hstep
    exact Or.inr (Or.inl ⟨rfl, rfl⟩)
  · cases hneeds : step.needs? with
    | none => exact Or.inl (step_snd_of_needs?_eq_none hneeds hstep)
    | some list =>
      rw [step_snd_of_needs? hneeds]
      by_cases hlist : cache.list? = some list
      · obtain ⟨set, hheld⟩ := exists_held_of_list? hlist
        exact Or.inl (by rw [get_of_held hheld])
      · rw [get_of_list?_ne hlist, renew_eq]
        cases hmade : RuleSet.ofList list with
        | error e => exact Or.inl rfl
        | ok set => exact Or.inr (Or.inr ⟨list, set, rfl, hmade, hlist, rfl⟩)

end Step

namespace Right

variable {cache : Cache}

/-- A cache that is right hands out the rule set that would be made anew. -/
theorem get_fst (h : cache.Right) (list : Text) : (cache.get list).1 = RuleSet.ofList list := by
  by_cases hlist : cache.list? = some list
  · obtain ⟨set, hheld⟩ := exists_held_of_list? hlist
    rw [get_of_held hheld, h list set hheld]
  · rw [get_of_list?_ne hlist, renew_eq]

/-- A cache that is right answers as if there were none. -/
theorem step_fst (h : cache.Right) (step : Step) : (cache.step step).1 = step.answer := by
  cases step with
  | get list => rw [Cache.step, Step.answer, h.get_fst]
  | evaluate sweeper source list =>
    rw [Cache.step, Step.answer, RuleSweep.evaluateBy]
    by_cases hsource : source = []
    · rw [hsource]
      rfl
    · have hne : ¬ source.isEmpty = true := by simpa using hsource
      rw [evaluateBy_of_ne_nil sweeper hsource, h.get_fst]
      exact (congrArg Answer.result (if_neg hne)).symm
  | invalidate => rfl

/-- A cache that is right stays so. -/
theorem step_snd (h : cache.Right) (step : Step) : (cache.step step).2.Right := by
  obtain hsame | ⟨-, hempty⟩ | ⟨list, set, -, hmade, -, hnew⟩ := cache.step_snd step
  · rw [hsame]
    exact h
  · rw [hempty]
    exact fun list set hheld => absurd hheld (by simp [empty])
  · rw [hnew]
    intro other otherSet hheld
    simp only [Option.some.injEq, Prod.mk.injEq] at hheld
    obtain ⟨rfl, rfl⟩ := hheld
    exact hmade

end Right

/-! ## What is held -/

/-- What a right cache holds behind a step: the rule set that the step needed, if it could
be made, and otherwise what it held before, unless the step empties it. -/
theorem Right.held_step_iff {cache : Cache} (h : cache.Right) {step : Step} {list : Text}
    {set : RuleSet} :
    (cache.step step).2.held = some (list, set) ↔
      (step.needs? = some list ∧ RuleSet.ofList list = .ok set) ∨
      (step ≠ .invalidate ∧
        (∀ other, step.needs? = some other → ∃ e, RuleSet.ofList other = .error e) ∧
        cache.held = some (list, set)) := by
  by_cases hstep : step = .invalidate
  · subst hstep
    simp [Cache.step, invalidate, empty, Step.needs?]
  cases hneeds : step.needs? with
  | none =>
    rw [step_snd_of_needs?_eq_none hneeds hstep]
    simp [hstep]
  | some needed =>
    rw [step_snd_of_needs? hneeds]
    by_cases hlist : cache.list? = some needed
    · -- the rule set is there, and since the cache is right it is the one that would be made
      obtain ⟨heldSet, hheld⟩ := exists_held_of_list? hlist
      have hmade := h needed heldSet hheld
      rw [get_of_held hheld, hheld]
      simp only [Option.some.injEq, Prod.mk.injEq]
      constructor
      · rintro ⟨rfl, rfl⟩
        exact Or.inl ⟨rfl, hmade⟩
      · rintro (⟨rfl, hset⟩ | ⟨-, -, heq⟩)
        · exact ⟨rfl, Except.ok.inj (hmade.symm.trans hset)⟩
        · exact heq
    · rw [get_of_list?_ne hlist, renew_eq]
      cases hmade : RuleSet.ofList needed with
      | error e =>
        simp only [Option.some.injEq]
        constructor
        · exact fun hheld => Or.inr ⟨hstep, fun other hother => ⟨e, hother ▸ hmade⟩, hheld⟩
        · rintro (⟨rfl, hset⟩ | ⟨-, -, hheld⟩)
          · exact absurd (hmade.symm.trans hset) (by simp)
          · exact hheld
      | ok newSet =>
        simp only [Option.some.injEq, Prod.mk.injEq]
        constructor
        · rintro ⟨rfl, rfl⟩
          exact Or.inl ⟨rfl, hmade⟩
        · rintro (⟨rfl, hset⟩ | ⟨-, herror, -⟩)
          · exact ⟨rfl, Except.ok.inj (hmade.symm.trans hset)⟩
          · obtain ⟨e, he⟩ := herror needed rfl
            exact absurd (hmade.symm.trans he) (by simp)

/-- Of no steps none was the last to need anything. -/
theorem not_lastMade_nil {list : Text} {set : RuleSet} : ¬ LastMade [] list set := by
  rintro ⟨before, step, after, heq, -⟩
  simp at heq

/-- The last step to need a rule set that could be made is the one at the end, or else one
of the steps in front of it. -/
theorem lastMade_append_singleton_iff {steps : List Step} {step : Step} {list : Text}
    {set : RuleSet} :
    LastMade (steps ++ [step]) list set ↔
      (step.needs? = some list ∧ RuleSet.ofList list = .ok set) ∨
      (step ≠ .invalidate ∧
        (∀ other, step.needs? = some other → ∃ e, RuleSet.ofList other = .error e) ∧
        LastMade steps list set) := by
  constructor
  · rintro ⟨before, made, after, heq, hneeds, hset, hheld, herrors⟩
    obtain rfl | ⟨earlier, last, rfl⟩ := List.eq_nil_or_concat after
    · obtain ⟨-, rfl⟩ := List.append_singleton_inj.mp heq
      exact Or.inl ⟨hneeds, hset⟩
    · rw [List.concat_eq_append, ← List.cons_append, ← List.append_assoc] at heq
      obtain ⟨rfl, rfl⟩ := List.append_singleton_inj.mp heq
      rw [List.concat_eq_append] at hheld herrors
      rw [List.forall_mem_append, List.forall_mem_singleton] at herrors
      rw [List.mem_append, List.mem_singleton, not_or] at hheld
      exact Or.inr ⟨Ne.symm hheld.2, herrors.2, before, made, earlier, rfl, hneeds, hset, hheld.1,
        herrors.1⟩
  · rintro (⟨hneeds, hset⟩ | ⟨hstep, herror, before, made, after, rfl, hneeds, hset, hheld,
      herrors⟩)
    · exact ⟨steps, step, [], rfl, hneeds, hset, List.not_mem_nil,
        fun later hlater => absurd hlater List.not_mem_nil⟩
    · refine ⟨before, made, after ++ [step], by simp, hneeds, hset, ?_, ?_⟩
      · rw [List.mem_append, List.mem_singleton, not_or]
        exact ⟨hheld, Ne.symm hstep⟩
      · rw [List.forall_mem_append, List.forall_mem_singleton]
        exact ⟨herrors, herror⟩

/-! ## Runs -/

/-- A step at the end of a run is answered by the cache behind the run. -/
theorem run_append_singleton (cache : Cache) (steps : List Step) (step : Step) :
    cache.run (steps ++ [step])
      = ((cache.run steps).1 ++ [((cache.run steps).2.step step).1],
        ((cache.run steps).2.step step).2) := by
  induction steps generalizing cache with
  | nil => rfl
  | cons first steps ih => simp [run, ih]

/-- Behind every run the cache is right. -/
theorem right_run_empty (steps : List Step) : (empty.run steps).2.Right := by
  induction steps using List.reverseRecOn with
  | nil => exact fun list set hheld => absurd hheld (by simp [run, empty])
  | append_singleton steps step ih =>
    rw [run_append_singleton]
    exact ih.step_snd step

/-- **A cache cannot be told from its answers.**  Every run of steps is answered as if there
were no cache, and behind it the cache holds the rule set of the last rule list that was
needed and could be made since it was emptied, and nothing if there is none.  Whatever a
cache holds, a step whose rule set cannot be made leaves it alone, and so does an evaluation
on an empty source; and what it holds gives way only to the rule set of another list.  Of
what it holds nothing is asked, so that it is this very rule set that stays. -/
theorem run_empty (steps : List Step) :
    (empty.run steps).1 = steps.map Step.answer ∧
    (∀ list set, (empty.run steps).2.held = some (list, set) ↔ LastMade steps list set) ∧
    ∀ (cache : Cache) (step : Step),
      (∀ list e, step.needs? = some list → RuleSet.ofList list = .error e →
        (cache.step step).2 = cache) ∧
      (∀ sweeper list, step = .evaluate sweeper [] list → (cache.step step).2 = cache) ∧
      (step ≠ .invalidate → (cache.step step).2 ≠ cache →
        ∃ list, step.needs? = some list ∧ cache.list? ≠ some list) := by
  refine ⟨?_, ?_, fun cache step => ⟨?_, ?_, ?_⟩⟩
  · induction steps using List.reverseRecOn with
    | nil => rfl
    | append_singleton steps step ih =>
      rw [run_append_singleton, ih, (right_run_empty steps).step_fst, List.map_append,
        List.map_singleton]
  · intro list set
    induction steps using List.reverseRecOn with
    | nil => simp [run, empty, not_lastMade_nil]
    | append_singleton steps step ih =>
      rw [run_append_singleton, lastMade_append_singleton_iff, ← ih]
      exact (right_run_empty steps).held_step_iff
  · intro list e hneeds herror
    obtain hsame | ⟨rfl, -⟩ | ⟨other, set, hother, hmade, -⟩ := cache.step_snd step
    · exact hsame
    · exact absurd hneeds (by simp [Step.needs?])
    · rw [Option.some.inj (hother.symm.trans hneeds), herror] at hmade
      exact absurd hmade (by simp)
  · rintro sweeper list rfl
    exact step_snd_of_needs?_eq_none rfl (by simp)
  · intro hstep hchanged
    obtain hsame | ⟨hempties, -⟩ | ⟨list, set, hneeds, -, hlist, -⟩ := cache.step_snd step
    · exact absurd hsame hchanged
    · exact absurd hempties hstep
    · exact ⟨list, hneeds, hlist⟩

/-- A sweep that breaks off does so behind the making of the rule set, which is held. -/
example : (empty.run [.get "a".toList, .evaluate (.broken []) "b".toList "b".toList]).2.list?
    = some "b".toList := by decide

end Cache

end RuleSweep
