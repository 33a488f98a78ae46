/-
# Asking a memo in any order

A memo can be asked for the matchers one by one, in any order and as often as one likes, as long as
the head never goes back.  A query names a matcher by its index and the position of the head.  Each
answer is what a new search from there would give (`Memo.answers_eq`): one query keeps all slots
right (`Memo.right_ask`), and so does moving the head on.

A sweep asks for all matchers in turn before each step (`Memo.askAll_eq_answers`).  A sweep that
remembers nothing is a `Stroll`, and every walk that remembers only what is right makes the same
stretches as the stroll that is left of it without its memo: `Walk.stretches_stroll`.  The main
statement is `Memo.answers_fresh`.
-/
import RuleSweep.Proofs.Sweep.Claims
import RuleSweep.Proofs.Sweep.Removal

namespace RuleSweep

/-- The head at a position of a source. -/
def Head.at (source : Text) (position : Nat) : Head :=
  ⟨position, source.drop position⟩

/-- The head at a later position is the head that has moved on. -/
theorem Head.at_add (source : Text) (position n : Nat) :
    Head.at source (position + n) = (Head.at source position).advance n := by
  rw [Head.at, Head.at, Head.advance, List.drop_drop]

namespace Memo

/-! ## One query -/

/-- The next find of the matcher of some index at or behind a head, and what to remember of it.
There is no answer for an index behind the last matcher. -/
def ask (head : Head) : (index : Nat) → Memo → Option Candidate × Memo
  | _, [] => (none, [])
  | 0, (matcher, slot) :: rest =>
    let (answer, slot) := slot.ask matcher.pattern head
    (answer, (matcher, slot) :: rest)
  | index + 1, entry :: rest =>
    let (answer, rest) := ask head index rest
    (answer, entry :: rest)

/-- The next find of the matcher of some index at or behind a head, searched for anew. -/
def search (matchers : List Matcher) (head : Head) (index : Nat) : Option Candidate :=
  matchers[index]?.bind fun matcher => Candidate.next? matcher.pattern head

/-- A query answers like a new search if what is remembered is right. -/
theorem ask_fst {head : Head} {memo : Memo} (h : Right head memo) (index : Nat) :
    (ask head index memo).1 = search (memo.map Prod.fst) head index := by
  induction memo generalizing index with
  | nil => cases index <;> rfl
  | cons entry rest ih =>
    obtain ⟨hentry, hrest⟩ := List.forall_mem_cons.mp h
    cases index with
    | zero => exact Slot.ask_fst hentry
    | succ index => exact ih hrest index

/-- What was right is right after a query. -/
theorem right_ask {head : Head} {memo : Memo} (h : Right head memo) (index : Nat) :
    Right head (ask head index memo).2 := by
  induction memo generalizing index with
  | nil => cases index <;> exact h
  | cons entry rest ih =>
    obtain ⟨hentry, hrest⟩ := List.forall_mem_cons.mp h
    cases index with
    | zero => exact List.forall_mem_cons.mpr ⟨Slot.right_ask_snd hentry, hrest⟩
    | succ index => exact List.forall_mem_cons.mpr ⟨hentry, ih hrest index⟩

/-- A query changes no matcher. -/
theorem map_fst_ask (head : Head) (index : Nat) (memo : Memo) :
    (ask head index memo).2.map Prod.fst = memo.map Prod.fst := by
  induction memo generalizing index with
  | nil => cases index <;> rfl
  | cons entry rest ih =>
    cases index with
    | zero => rfl
    | succ index =>
      show entry.1 :: (ask head index rest).2.map Prod.fst = _
      rw [ih index, List.map_cons]

/-! ## Several queries -/

/-- What is asked of a memo: the next find of one matcher, from a position on. -/
structure Query where
  /-- The index of the matcher. -/
  index : Nat
  /-- The position of the head. -/
  position : Nat
  deriving DecidableEq, Repr

/-- The answers to queries that are put one after the other, and what is remembered in the end. -/
def answers (source : Text) : List Query → Memo → List (Option Candidate) × Memo
  | [], memo => ([], memo)
  | query :: queries, memo =>
    let (answer, memo) := ask (Head.at source query.position) query.index memo
    let (later, memo) := answers source queries memo
    (answer :: later, memo)

/-- The head never goes back between two queries. -/
def Forward (queries : List Query) : Prop :=
  queries.Pairwise fun query later => query.position ≤ later.position

/-- **Every answer is that of a new search**, if what is remembered is right in front of all
queries and the head never goes back. -/
theorem answers_eq {source : Text} {position : Nat} {memo : Memo} {queries : List Query}
    (h : Right (Head.at source position) memo) (hbehind : ∀ query ∈ queries,
      position ≤ query.position) (hforward : Forward queries) :
    (answers source queries memo).1 = queries.map fun query =>
      search (memo.map Prod.fst) (Head.at source query.position) query.index := by
  induction queries generalizing position memo with
  | nil => rfl
  | cons query queries ih =>
    obtain ⟨hquery, -⟩ := List.forall_mem_cons.mp hbehind
    obtain ⟨hlater, hrest⟩ := List.pairwise_cons.mp hforward
    -- the head moves on to the query, and what is remembered stays right
    have hright : Right (Head.at source query.position) memo := by
      have hmoved := h.advance (query.position - position)
      rwa [← Head.at_add, Nat.add_sub_cancel' hquery] at hmoved
    have hothers := ih (right_ask hright query.index) hlater hrest
    rw [map_fst_ask] at hothers
    rw [List.map_cons, ← hothers, ← ask_fst hright]
    rfl

/-- Queries for later matchers do not touch the first one. -/
theorem answers_map_succ (source : Text) (position : Nat) (entry : Matcher × Slot)
    (indexes : List Nat) (memo : Memo) :
    answers source (indexes.map fun index => ⟨index + 1, position⟩) (entry :: memo)
      = ((answers source (indexes.map fun index => ⟨index, position⟩) memo).1,
          entry :: (answers source (indexes.map fun index => ⟨index, position⟩) memo).2) := by
  induction indexes generalizing memo with
  | nil => rfl
  | cons index indexes ih =>
    -- the first query leaves the first entry as it is, and so do the later ones
    have hlater := ih (ask (Head.at source position) index memo).2
    simp only [List.map_cons, answers, ask, hlater]

/-- **To ask for all matchers is to ask for each of them in turn.** -/
theorem askAll_eq_answers (source : Text) (position : Nat) (memo : Memo) :
    let asked := answers source ((List.range memo.length).map fun index => ⟨index, position⟩) memo
    askAll (Head.at source position) memo
      = (((memo.map Prod.fst).zip asked.1).filterMap fun entry =>
          entry.2.map fun candidate => (entry.1, candidate), asked.2) := by
  induction memo with
  | nil => rfl
  | cons entry rest ih =>
    obtain ⟨matcher, slot⟩ := entry
    have hsucc : (List.range rest.length).map (fun index => (⟨index.succ, position⟩ : Query))
        = (List.range rest.length).map fun index => ⟨index + 1, position⟩ := rfl
    simp only [List.length_cons, List.range_succ_eq_map, List.map_cons, List.map_map, answers, ask,
      Function.comp_def, hsucc, answers_map_succ, askAll, ih]
    cases slot.ask matcher.pattern (Head.at source position) with
    | mk answer asked => cases answer <;> rfl

end Memo

/-! ## Sweeps that remember nothing -/

/-- A sweep under way that remembers nothing. -/
structure Stroll where
  /-- The length of the source. -/
  size : Nat
  /-- How far the sweep has come. -/
  head : Head
  /-- The claimed lines ahead. -/
  claims : List Claim
  /-- The other rules. -/
  matchers : List Matcher

namespace Stroll

/-- The next `n` characters as a stretch that is kept, if there are any to keep. -/
def keep (stroll : Stroll) (n : Nat) : List Stretch :=
  if n = 0 then [] else [.kept (stroll.head.ahead.take n)]

/-- Search anew with all matchers, and go on to the end of the best find before a limit, or to the
limit if there is none. -/
def seek (stroll : Stroll) (limit : Nat) : List Stretch × Stroll :=
  match bestBefore? stroll.head limit stroll.matchers with
  | none =>
    let n := limit - stroll.head.position
    (stroll.keep n, { stroll with head := stroll.head.advance n })
  | some (matcher, candidate) =>
    (stroll.keep (candidate.start - stroll.head.position) ++ [.found matcher candidate],
      { stroll with head := stroll.head.advance (candidate.stop - stroll.head.position) })

/-- Go on past a claimed line that begins here, or else to the end of the next find. -/
def step (stroll : Stroll) : List Stretch × Stroll :=
  match stroll.claims with
  | [] => stroll.seek stroll.size
  | claim :: later =>
    if claim.line.start = stroll.head.position then
      ([.claimed claim],
        { stroll with head := stroll.head.advance claim.line.text.length, claims := later })
    else stroll.seek claim.line.start

/-- The stretches from here to the end of the source, which at most `limit` steps reach. -/
def stretches : (limit : Nat) → Stroll → List Stretch
  | 0, _ => []
  | limit + 1, stroll =>
    if stroll.head.position < stroll.size then
      stroll.step.1 ++ stretches limit stroll.step.2
    else []

end Stroll

/-- The segments that matchers make of a source when every find is searched for anew. -/
def strollThrough (matchers : List Matcher) (source : Text) : List Segment :=
  let stroll : Stroll :=
    { size := source.length
      head := ⟨0, source⟩
      claims := Claim.ofSource (lineMatchers matchers) source
      matchers := textMatchers matchers }
  (stroll.stretches source.length).map Stretch.segment

namespace Walk

variable {walk : Walk}

/-- What is left of a walk without its memo. -/
def stroll (walk : Walk) : Stroll :=
  ⟨walk.size, walk.head, walk.claims, walk.memo.map Prod.fst⟩

/-- A step towards a limit does what the stroll does, and then again all that is remembered is
right. -/
theorem seek_stroll (h : Memo.Right walk.head walk.memo) (limit : Nat) :
    walk.stroll.seek limit = ((walk.seek limit).1, (walk.seek limit).2.stroll) ∧
      Memo.Right (walk.seek limit).2.head (walk.seek limit).2.memo := by
  have hfst : (Memo.askAll walk.head walk.memo).2.map Prod.fst = walk.memo.map Prod.fst :=
    Memo.map_fst_askAll walk.head walk.memo
  have hasked := Memo.right_askAll h
  have hbest : bestBefore? walk.stroll.head limit walk.stroll.matchers
      = bestBefore? walk.head limit (walk.memo.map Prod.fst) := rfl
  rw [seek_eq_of_right h, Stroll.seek, hbest]
  cases bestBefore? walk.head limit (walk.memo.map Prod.fst) with
  | none =>
    refine ⟨?_, hasked.advance _⟩
    simp only [stroll, hfst]
    rfl
  | some entry =>
    refine ⟨?_, hasked.advance _⟩
    simp only [stroll, hfst]
    rfl

/-- **A step does what the stroll does**, and then again all that is remembered is right. -/
theorem step_stroll (h : Memo.Right walk.head walk.memo) :
    walk.stroll.step = (walk.step.1, walk.step.2.stroll) ∧
      Memo.Right walk.step.2.head walk.step.2.memo := by
  rw [step, Stroll.step, show walk.stroll.claims = walk.claims from rfl]
  cases hclaims : walk.claims with
  | nil => exact seek_stroll h walk.size
  | cons claim later =>
    by_cases hstart : claim.line.start = walk.head.position
    · simp only [show walk.stroll.head = walk.head from rfl, if_pos hstart]
      exact ⟨rfl, h.advance claim.line.text.length⟩
    · simp only [show walk.stroll.head = walk.head from rfl, if_neg hstart]
      exact seek_stroll h claim.line.start

/-- A walk makes the stretches of the stroll up to the end. -/
theorem stretches_stroll (h : Memo.Right walk.head walk.memo) (limit : Nat) :
    walk.stroll.stretches limit = stretches limit walk := by
  induction limit generalizing walk with
  | zero => rfl
  | succ limit ih =>
    obtain ⟨hstep, hright⟩ := step_stroll h
    rw [stretches_succ, Stroll.stretches, hstep, ih hright]
    rfl

end Walk

/-- **A sweep makes the same segments whether or not it remembers anything.** -/
theorem strollThrough_eq_sweep (matchers : List Matcher) (source : Text) :
    strollThrough matchers source = sweep matchers source := by
  have hright : Memo.Right (Walk.start matchers source).head (Walk.start matchers source).memo :=
    Memo.right_fresh _ _
  have hstretches := Walk.stretches_stroll hright source.length
  rw [sweep_eq_map_segment, cut, ← hstretches, Walk.stroll, Walk.start, Memo.map_fst_fresh]
  rfl

/-! ## All together -/

/-- The matcher of a rule finds nothing at or behind a position of a source exactly if no alternative
of the rule fits there. -/
theorem Matcher.next?_eq_none_iff {rule : Rule} {matcher : Matcher}
    (h : ofRule rule = .ok matcher) (source : Text) (position : Nat) :
    Candidate.next? matcher.pattern (Head.at source position) = none ↔
      ∀ s ≥ position, ∀ pieces ∈ Pattern.readings rule.body,
        ¬ Piece.Fits pieces (source.drop s) := by
  rw [Pattern.next?_eq_none_iff]
  simp only [hit?_eq_none_iff h, Head.at, List.drop_drop]
  constructor
  · intro hnone s hs
    have hhere := hnone (s - position)
    rwa [Nat.add_sub_cancel' hs] at hhere
  · intro hnone s
    exact hnone (position + s) (Nat.le_add_right position s)

namespace Memo

/-- **What is remembered changes no answer.**  However often a fresh memo is asked for the matchers
of some rules, as long as the head never goes back, every answer is the next find of the matcher from
there on, searched for anew; and there is none exactly if no alternative of the rule fits at or
behind the head.  To ask for all matchers, as a sweep does, is to ask for each of them in turn; and a
sweep makes the same segments if it remembers nothing. -/
theorem answers_fresh {rules : List Rule} {matchers : List Matcher}
    (h : rules.mapM Matcher.ofRule = .ok matchers) (source : Text) :
    (∀ queries, Forward queries → (∀ query ∈ queries, query.index < matchers.length) →
      List.Forall₂ (fun query answer => ∃ matcher, matchers[query.index]? = some matcher ∧
          answer = Candidate.next? matcher.pattern (Head.at source query.position) ∧
          (answer = none ↔ ∀ s ≥ query.position, ∀ pieces ∈ Pattern.readings matcher.rule.body,
            ¬ Piece.Fits pieces (source.drop s)))
        queries (answers source queries (fresh matchers)).1) ∧
    (∀ position memo,
      let asked := answers source ((List.range memo.length).map fun index => ⟨index, position⟩) memo
      askAll (Head.at source position) memo
        = (((memo.map Prod.fst).zip asked.1).filterMap fun entry =>
            entry.2.map fun candidate => (entry.1, candidate), asked.2)) ∧
    sweep matchers source = strollThrough matchers source := by
  refine ⟨?_, askAll_eq_answers source, (strollThrough_eq_sweep matchers source).symm⟩
  intro queries hforward hindex
  have hanswers := answers_eq (right_fresh (Head.at source 0) matchers)
    (fun query _ => Nat.zero_le query.position) hforward
  rw [hanswers, map_fst_fresh, List.forall₂_map_right_iff, List.forall₂_same]
  intro query hquery
  have hlt := hindex query hquery
  obtain ⟨rule, -, hof⟩ := Matcher.exists_rule_of_mapM_ofRule h matchers[query.index]
    (List.getElem_mem hlt)
  have hsearch : search matchers (Head.at source query.position) query.index
      = Candidate.next? matchers[query.index].pattern (Head.at source query.position) := by
    rw [search, List.getElem?_eq_getElem hlt]
    rfl
  refine ⟨matchers[query.index], List.getElem?_eq_getElem hlt, hsearch, ?_⟩
  rw [hsearch, (Matcher.of_ofRule hof).1]
  exact Matcher.next?_eq_none_iff hof source query.position

/-- Two matchers are asked in turn, one of them for a search with a newline.  The second answer of
each is remembered, and the third one is searched for anew. -/
theorem answers_fresh_newline :
    let rules : List Rule := [⟨"b\n[num]".toList, .text, .mark, 1, []⟩,
      ⟨"a".toList, .text, .mark, 2, []⟩]
    let source : Text := "xab\n1 a2".toList
    let queries : List Query := [⟨1, 0⟩, ⟨0, 1⟩, ⟨1, 1⟩, ⟨0, 2⟩, ⟨1, 2⟩, ⟨0, 4⟩, ⟨0, 5⟩]
    ∃ matchers, rules.mapM Matcher.ofRule = .ok matchers ∧
      (answers source queries (fresh matchers)).1
        = [some ⟨1, "a".toList, []⟩, some ⟨2, "b\n1".toList, [some "1".toList]⟩,
            some ⟨1, "a".toList, []⟩, some ⟨2, "b\n1".toList, [some "1".toList]⟩,
            some ⟨6, "a".toList, []⟩, none, none] ∧
      (∀ s ≥ 4, ∀ pieces ∈ Pattern.readings "b\n[num]".toList,
        ¬ Piece.Fits pieces (source.drop s)) ∧
      strollThrough matchers source = sweep matchers source := by
  intro rules source queries
  have h : rules.mapM Matcher.ofRule = .ok
      [⟨⟨"b\n[num]".toList, .text, .mark, 1, []⟩, ⟨[[.char 'b', .char '\n', .wildcard .number]]⟩, []⟩,
        ⟨⟨"a".toList, .text, .mark, 2, []⟩, ⟨[[.char 'a']]⟩, []⟩] := by decide
  obtain ⟨hanswers, -, hsweep⟩ := answers_fresh h source
  have hforward : Forward [(⟨0, 4⟩ : Query)] := List.pairwise_singleton _ _
  have hone := hanswers [⟨0, 4⟩] hforward (by decide)
  refine ⟨_, h, by decide, ?_, hsweep.symm⟩
  -- the answer to the one query is none, so nothing fits from there on
  obtain ⟨⟨matcher, hmatcher, -, hnone⟩, -⟩ := List.forall₂_cons.mp hone
  obtain rfl := Option.some.inj hmatcher
  exact hnone.mp (by decide)

end Memo

end RuleSweep
