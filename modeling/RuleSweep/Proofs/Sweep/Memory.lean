/-
# What is remembered stays right

A slot is right at a head if what it remembers is what a new search from there would
answer, as far as it will be used: a remembered candidate behind the head is looked for
anew, so nothing is said of it.  A slot that is right stays so when the head moves on, and
therefore a memo that has been right once answers like new searches:
`Memo.askAll_eq_finds`.
-/
import RuleSweep.Proofs.Pattern.Leftmost

namespace RuleSweep

/-! ## Moving the head -/

namespace Candidate

/-- The next candidate is still the next one when the head moves on, but not past its
start. -/
theorem next?_advance {pattern : Pattern} {head : Head} {candidate : Candidate} {n : Nat}
    (h : next? pattern head = some candidate) (hn : head.position + n ≤ candidate.start) :
    next? pattern (head.advance n) = some candidate := by
  obtain ⟨s, hit, hhit, hbefore, rfl⟩ := Pattern.next?_eq_some_iff.mp h
  have hns : n ≤ s := by simpa using hn
  have hdrop : (head.advance n).ahead.drop (s - n) = head.ahead.drop s := by
    rw [Head.advance, List.drop_drop, Nat.add_sub_cancel' hns]
  refine Pattern.next?_eq_some_iff.mpr ⟨s - n, hit, by rw [hdrop]; exact hhit, ?_, ?_⟩
  · intro s' hs'
    rw [Head.advance, List.drop_drop]
    exact hbefore (n + s') (by omega)
  · rw [hdrop]
    simp only [Head.advance, mk.injEq, and_true]
    omega

/-- If there is no next candidate, there is none when the head has moved on. -/
theorem next?_advance_none {pattern : Pattern} {head : Head} (h : next? pattern head = none)
    (n : Nat) : next? pattern (head.advance n) = none := by
  rw [Pattern.next?_eq_none_iff] at h ⊢
  intro s
  rw [Head.advance, List.drop_drop]
  exact h (n + s)

end Candidate

/-! ## One slot -/

namespace Slot

/-- What a slot remembers is right at a head. -/
def Right (pattern : Pattern) (head : Head) : Slot → Prop
  | .unasked => True
  | .found candidate =>
    head.position ≤ candidate.start → Candidate.next? pattern head = some candidate
  | .exhausted => Candidate.next? pattern head = none

/-- A new answer is right where it was given. -/
theorem right_ofAnswer (pattern : Pattern) (head : Head) :
    (ofAnswer (Candidate.next? pattern head)).Right pattern head := by
  cases hnext : Candidate.next? pattern head with
  | none => exact hnext
  | some candidate => exact fun _ => hnext

/-- What is right stays so when the head moves on. -/
theorem Right.advance {pattern : Pattern} {head : Head} {slot : Slot}
    (h : slot.Right pattern head) (n : Nat) : slot.Right pattern (head.advance n) := by
  cases slot with
  | unasked => trivial
  | found candidate =>
    -- if it begins behind the new head, it also began behind the old one
    intro hstart
    have hstart' : head.position + n ≤ candidate.start := hstart
    exact Candidate.next?_advance (h (by omega)) hstart'
  | exhausted => exact Candidate.next?_advance_none h n

/-- A slot that is right answers like a new search. -/
theorem ask_fst {pattern : Pattern} {head : Head} {slot : Slot} (h : slot.Right pattern head) :
    (slot.ask pattern head).1 = Candidate.next? pattern head := by
  cases slot with
  | unasked => rfl
  | found candidate =>
    rw [ask]
    split
    · next hstart => exact (h hstart).symm
    · rfl
  | exhausted => exact h.symm

/-- A slot that was right is right after it has been asked. -/
theorem right_ask_snd {pattern : Pattern} {head : Head} {slot : Slot}
    (h : slot.Right pattern head) : (slot.ask pattern head).2.Right pattern head := by
  cases slot with
  | unasked => exact right_ofAnswer pattern head
  | found candidate =>
    rw [ask]
    split
    · exact h
    · exact right_ofAnswer pattern head
  | exhausted => exact h

end Slot

/-! ## All slots -/

/-- The next finds of matchers at or behind a head, each searched for anew. -/
def finds (head : Head) (matchers : List Matcher) : List (Matcher × Candidate) :=
  matchers.filterMap fun matcher =>
    (Candidate.next? matcher.pattern head).map fun candidate => (matcher, candidate)

/-- A find is the next candidate of one of the matchers. -/
theorem mem_finds {head : Head} {matchers : List Matcher} {entry : Matcher × Candidate} :
    entry ∈ finds head matchers ↔
      entry.1 ∈ matchers ∧ Candidate.next? entry.1.pattern head = some entry.2 := by
  obtain ⟨matcher, candidate⟩ := entry
  simp only [finds, List.mem_filterMap, Option.map_eq_some_iff, Prod.mk.injEq]
  constructor
  · rintro ⟨m, hm, c, hc, rfl, rfl⟩
    exact ⟨hm, hc⟩
  · rintro ⟨hm, hc⟩
    exact ⟨matcher, hm, candidate, hc, rfl, rfl⟩

namespace Memo

/-- All that is remembered is right at a head. -/
def Right (head : Head) (memo : Memo) : Prop :=
  ∀ entry ∈ memo, entry.2.Right entry.1.pattern head

/-- As long as nothing is remembered, nothing is wrong. -/
theorem right_fresh (head : Head) (matchers : List Matcher) : Right head (fresh matchers) := by
  intro entry hentry
  obtain ⟨matcher, -, rfl⟩ := List.mem_map.mp hentry
  trivial

/-- The memo that is made for matchers holds them in their order. -/
theorem map_fst_fresh (matchers : List Matcher) : (fresh matchers).map Prod.fst = matchers := by
  simp [fresh, Function.comp_def]

/-- What is right stays so when the head moves on. -/
theorem Right.advance {head : Head} {memo : Memo} (h : Right head memo) (n : Nat) :
    Right (head.advance n) memo :=
  fun entry hentry => (h entry hentry).advance n

/-- **A memo that is right answers like new searches.** -/
theorem askAll_eq_finds {head : Head} {memo : Memo} (h : Right head memo) :
    (askAll head memo).1 = finds head (memo.map Prod.fst) := by
  induction memo with
  | nil => rfl
  | cons entry rest ih =>
    obtain ⟨matcher, slot⟩ := entry
    obtain ⟨hslot, hrest⟩ := List.forall_mem_cons.mp h
    have hask := Slot.ask_fst hslot
    rw [askAll]
    cases hanswer : slot.ask matcher.pattern head with
    | mk answer slot' =>
      rw [hanswer] at hask
      subst hask
      cases hnext : Candidate.next? matcher.pattern head with
      | none => simp [hnext, finds, ih hrest]
      | some candidate => simp [hnext, finds, ih hrest]

/-- Asking changes no matcher. -/
theorem map_fst_askAll (head : Head) (memo : Memo) :
    (askAll head memo).2.map Prod.fst = memo.map Prod.fst := by
  induction memo with
  | nil => rfl
  | cons entry rest ih =>
    obtain ⟨matcher, slot⟩ := entry
    rw [askAll]
    cases slot.ask matcher.pattern head with
    | mk answer slot' => cases answer <;> simp [ih]

/-- A memo that was right is right after it has been asked. -/
theorem right_askAll {head : Head} {memo : Memo} (h : Right head memo) :
    Right head (askAll head memo).2 := by
  induction memo with
  | nil => exact h
  | cons entry rest ih =>
    obtain ⟨matcher, slot⟩ := entry
    obtain ⟨hslot, hrest⟩ := List.forall_mem_cons.mp h
    have hasked := Slot.right_ask_snd hslot
    rw [askAll]
    cases hanswer : slot.ask matcher.pattern head with
    | mk answer slot' =>
      rw [hanswer] at hasked
      cases answer with
      | none => exact List.forall_mem_cons.mpr ⟨hasked, ih hrest⟩
      | some candidate => exact List.forall_mem_cons.mpr ⟨hasked, ih hrest⟩

end Memo

end RuleSweep
