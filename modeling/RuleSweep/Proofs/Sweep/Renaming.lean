/-
# What a sweep does not look at

Of a matcher a sweep looks at the pattern and the scope when it looks for something
(`Matcher.SearchesLike`), and at the template and the action when it makes a segment
(`Matcher.WorksLike`), and at nothing else: not at the row on which its rule stands, nor at
the number of that row.  So when all matchers are exchanged for others that search like them,
every event of the plain walk is the same but for the matcher that it names (`eventAt?_map`),
and so is the whole cut (`cut_map`); if they also work like them, the segments are the same:
`sweep_map`.
-/
import RuleSweep.Proofs.Sweep.Plain

namespace RuleSweep

/-- Two matchers find the same. -/
structure Matcher.SearchesLike (matcher other : Matcher) : Prop where
  /-- They search for the same. -/
  pattern : matcher.pattern = other.pattern
  /-- They look at the same. -/
  scope : matcher.rule.scope = other.rule.scope

/-- Two matchers find the same and make the same of it. -/
structure Matcher.WorksLike (matcher other : Matcher) : Prop extends
    matcher.SearchesLike other where
  /-- They put the same in its place. -/
  template : matcher.template = other.template
  /-- They do the same with it. -/
  action : matcher.rule.action = other.rule.action

namespace Matcher.WorksLike

variable {matcher other : Matcher}

/-- They both replace or they both mark. -/
theorem replaces (h : matcher.WorksLike other) : matcher.rule.replaces = other.rule.replaces := by
  rw [Rule.replaces, Rule.replaces, h.action]

/-- They both delete or they both do not. -/
theorem deletes (h : matcher.WorksLike other) : matcher.rule.deletes = other.rule.deletes := by
  rw [Rule.deletes, Rule.deletes, h.action]

/-- Their segments are of the same kind. -/
theorem kind (h : matcher.WorksLike other) : matcher.kind = other.kind := by
  rw [Matcher.kind, Matcher.kind, h.replaces]

/-- They put the same in the place of the same find. -/
theorem render (h : matcher.WorksLike other) (found : Text) (groups : Groups) :
    matcher.render found groups = other.render found groups := by
  rw [Matcher.render, Matcher.render, h.replaces, h.template]

/-- Of the same line they make the same segment. -/
theorem segment (h : matcher.WorksLike other) (line : Line) (groups : Groups) :
    Claim.segment ⟨line, matcher, groups⟩ = Claim.segment ⟨line, other, groups⟩ := by
  rw [Claim.segment, Claim.segment]
  dsimp only
  rw [h.render, Claim.keepsTerminator, Claim.keepsTerminator, h.replaces, h.deletes, h.kind]

end Matcher.WorksLike

/-- The same stretch with another matcher. -/
def Stretch.rename (f : Matcher → Matcher) : Stretch → Stretch
  | .kept text => .kept text
  | .claimed claim => .claimed { claim with matcher := f claim.matcher }
  | .found matcher candidate => .found (f matcher) candidate

/-- A stretch that is renamed is a stretch of the same text. -/
theorem Stretch.span_rename (f : Matcher → Matcher) (stretch : Stretch) :
    (stretch.rename f).span = stretch.span := by
  cases stretch <;> rfl

/-- The argument of the maximum of a list that was mapped. -/
theorem argmax_map {α β : Type} (f : β → Nat) (g : α → β) (list : List α) :
    (list.map g).argmax f = (list.argmax fun a => f (g a)).map g := by
  induction list with
  | nil => rfl
  | cons a list ih =>
    rw [List.map_cons, List.argmax_cons, List.argmax_cons, ih]
    cases list.argmax fun a => f (g a) with
    | none => rfl
    | some b =>
      simp only [Option.map_some]
      split <;> rfl

/-- The segment of a stretch does not change when its matcher is exchanged for one that works
like it. -/
theorem Stretch.segment_rename {f : Matcher → Matcher}
    (hf : ∀ matcher, (f matcher).WorksLike matcher) (stretch : Stretch) :
    (stretch.rename f).segment = stretch.segment := by
  cases stretch with
  | kept text => rfl
  | claimed claim => exact (hf claim.matcher).segment claim.line claim.groups
  | found matcher candidate =>
    rw [rename, segment, segment, (hf matcher).kind, (hf matcher).render]

section Renaming

variable {f : Matcher → Matcher} (hf : ∀ matcher, (f matcher).SearchesLike matcher)
include hf

variable (matchers : List Matcher) (behind t : Text)

/-- The rules of a scope are exchanged one by one. -/
theorem filter_scope_map (scope : Scope) :
    (matchers.map f).filter (·.rule.scope = scope)
      = (matchers.filter (·.rule.scope = scope)).map f := by
  rw [List.filter_map]
  congr 2
  funext matcher
  rw [Function.comp, (hf matcher).scope]

/-- The same line is claimed, by the matcher that was put in the place of the other. -/
theorem claimAt?_map :
    claimAt? (matchers.map f) behind t
      = (claimAt? matchers behind t).map
          fun claim => { claim with matcher := f claim.matcher } := by
  rw [claimAt?, claimAt?, lineMatchers, lineMatchers, filter_scope_map hf]
  split
  · rw [List.findSome?_map, List.map_findSome?]
    congr 1
    funext matcher
    rw [Function.comp, Function.comp, (hf matcher).pattern, Option.map_map]
    rfl
  · rfl

/-- The same rules fit here, under the matchers that were put in their place. -/
theorem hitsAt_map :
    hitsAt (matchers.map f) t = (hitsAt matchers t).map fun entry => (f entry.1, entry.2) := by
  rw [hitsAt, hitsAt, textMatchers, textMatchers, filter_scope_map hf, List.filterMap_map,
    List.map_filterMap]
  congr 1
  funext matcher
  rw [Function.comp, (hf matcher).pattern, Option.map_map]
  rfl

/-- **The event at a place is the same but for the matcher.** -/
theorem eventAt?_map :
    eventAt? (matchers.map f) behind t = (eventAt? matchers behind t).map (Stretch.rename f) := by
  rw [eventAt?, eventAt?, claimAt?_map hf]
  cases claimAt? matchers behind t with
  | some claim => rfl
  | none =>
    simp only [Option.map_none]
    rw [hitsAt_map hf, argmax_map, Option.map_map, Option.map_map]
    rfl

/-- The plain walk makes the same stretches but for the matchers. -/
theorem plainFrom_map (skip : Nat) (run : Text) :
    plainFrom (matchers.map f) skip run behind t
      = (plainFrom matchers skip run behind t).map (Stretch.rename f) := by
  have hkeeping : ∀ run : Text,
      (Stretch.keeping run).map (Stretch.rename f) = Stretch.keeping run := by
    intro run
    by_cases hrun : run = [] <;> simp [Stretch.keeping, Stretch.rename, hrun]
  induction t generalizing skip run behind with
  | nil => rw [plainFrom, plainFrom, hkeeping]
  | cons c t ih =>
    cases skip with
    | succ skip => rw [plainFrom, plainFrom, ih]
    | zero =>
      rw [plainFrom, plainFrom, eventAt?_map hf]
      cases eventAt? matchers behind (c :: t) with
      | none => exact ih _ _ _
      | some event =>
        simp only [Option.map_some]
        rw [Stretch.span_rename, ih, List.map_append, List.map_cons, hkeeping]

end Renaming

/-- **Matchers that search alike cut a source alike.** -/
theorem cut_map {f : Matcher → Matcher} (hf : ∀ matcher, (f matcher).SearchesLike matcher)
    {matchers : List Matcher} (hsolid : ∀ matcher ∈ matchers, matcher.pattern.Solid)
    (hline : ∀ matcher ∈ matchers, matcher.pattern.WithinLine) (source : Text) :
    cut (matchers.map f) source = (cut matchers source).map (Stretch.rename f) := by
  have hsolid' : ∀ matcher ∈ matchers.map f, matcher.pattern.Solid := by
    rw [List.forall_mem_map]
    exact fun matcher hmatcher => (hf matcher).pattern ▸ hsolid matcher hmatcher
  have hline' : ∀ matcher ∈ matchers.map f, matcher.pattern.WithinLine := by
    rw [List.forall_mem_map]
    exact fun matcher hmatcher => (hf matcher).pattern ▸ hline matcher hmatcher
  rw [cut_eq_plainFrom hsolid' hline', cut_eq_plainFrom hsolid hline, plainFrom_map hf]

/-- **Matchers that work alike make the same segments.** -/
theorem sweep_map {f : Matcher → Matcher} (hf : ∀ matcher, (f matcher).WorksLike matcher)
    {matchers : List Matcher} (hsolid : ∀ matcher ∈ matchers, matcher.pattern.Solid)
    (hline : ∀ matcher ∈ matchers, matcher.pattern.WithinLine) (source : Text) :
    sweep (matchers.map f) source = sweep matchers source := by
  rw [sweep_eq_map_segment, sweep_eq_map_segment,
    cut_map (fun matcher => (hf matcher).toSearchesLike) hsolid hline, List.map_map]
  congr 1
  funext stretch
  exact stretch.segment_rename hf

end RuleSweep
