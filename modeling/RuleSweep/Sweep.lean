/-
# The sweep

A source is swept once from left to right.  Lines that a rule has claimed are handled
whole.  Between them the next find is the leftmost one of all other rules, among those
that begin there the longest, and among those the earliest rule's; a find may not reach
into a claimed line.  What lies between two finds is kept.

The sweep cuts the source into stretches, and each stretch stands for one segment.
-/
import RuleSweep.Sweep.Claim
import RuleSweep.Sweep.Candidate

namespace RuleSweep

/-- A stretch of the source, and what became of it. -/
inductive Stretch where
  /-- Nothing was found in it. -/
  | kept (text : Text)
  /-- It is a line that a rule has claimed. -/
  | claimed (claim : Claim)
  /-- It is a find of a matcher. -/
  | found (matcher : Matcher) (candidate : Candidate)
  deriving DecidableEq, Repr

namespace Stretch

/-- The stretch of the source itself. -/
def span : Stretch → Text
  | .kept text => text
  | .claimed claim => claim.line.text
  | .found _ candidate => candidate.text

/-- The segment that stands for a stretch. -/
def segment : Stretch → Segment
  | .kept text => ⟨.kept, text⟩
  | .claimed claim => claim.segment
  | .found matcher candidate =>
    ⟨matcher.kind, matcher.render candidate.text candidate.groups⟩

end Stretch

/-- A sweep under way. -/
structure Walk where
  /-- The length of the source. -/
  size : Nat
  /-- How far the sweep has come. -/
  head : Head
  /-- The claimed lines ahead. -/
  claims : List Claim
  /-- What is remembered of the other rules. -/
  memo : Memo
  deriving DecidableEq, Repr

namespace Walk

/-- The beginning of a sweep. -/
def start (matchers : List Matcher) (source : Text) : Walk where
  size := source.length
  head := ⟨0, source⟩
  claims := Claim.ofSource (matchers.filter (·.rule.scope = .line)) source
  memo := Memo.fresh (matchers.filter (·.rule.scope = .text))

/-- The next `n` characters as a stretch that is kept, if there are any to keep. -/
def keep (walk : Walk) (n : Nat) : List Stretch :=
  if n = 0 then [] else [.kept (walk.head.ahead.take n)]

/-- Go on to the end of the next find before a limit, or to the limit if there is
none. -/
def seek (walk : Walk) (limit : Nat) : List Stretch × Walk :=
  let (candidates, memo) := Memo.askAll walk.head walk.memo
  match Candidate.best? (candidates.filter (·.2.fitsBefore limit)) with
  | none =>
    let n := limit - walk.head.position
    (walk.keep n, { walk with head := walk.head.advance n, memo })
  | some (matcher, candidate) =>
    (walk.keep (candidate.start - walk.head.position) ++ [.found matcher candidate],
      { walk with head := walk.head.advance (candidate.stop - walk.head.position), memo })

/-- Go on past a claimed line that begins here, or else to the end of the next find. -/
def step (walk : Walk) : List Stretch × Walk :=
  match walk.claims with
  | [] => walk.seek walk.size
  | claim :: later =>
    if claim.line.start = walk.head.position then
      ([.claimed claim],
        { walk with head := walk.head.advance claim.line.text.length, claims := later })
    else walk.seek claim.line.start

/-- The stretches `done`, which are given from the last to the first, and then those
from here to the end of the source, which at most `limit` steps reach. -/
def stretchesOnto (done : List Stretch) : (limit : Nat) → Walk → List Stretch
  | 0, _ => done.reverse
  | limit + 1, walk =>
    if walk.head.position < walk.size then
      let (made, walk) := walk.step
      stretchesOnto (made.reverse ++ done) limit walk
    else done.reverse

/-- The stretches from here to the end of the source, which at most `limit` steps
reach. -/
def stretches (limit : Nat) (walk : Walk) : List Stretch :=
  stretchesOnto [] limit walk

/-- What has been done stands in front of what is still to come. -/
theorem stretchesOnto_eq (done : List Stretch) (limit : Nat) (walk : Walk) :
    stretchesOnto done limit walk = done.reverse ++ stretches limit walk := by
  induction limit generalizing done walk with
  | zero => simp [stretches, stretchesOnto]
  | succ limit ih =>
    unfold stretches stretchesOnto
    split
    · simp [ih]
    · simp

/-- The stretches of a walk that has not reached the end: those of the next step, and
those behind it. -/
theorem stretches_succ (limit : Nat) (walk : Walk) :
    stretches (limit + 1) walk
      = if walk.head.position < walk.size then
          walk.step.1 ++ stretches limit walk.step.2
        else [] := by
  rw [stretches, stretchesOnto]
  split
  · simp [stretchesOnto_eq]
  · rfl

end Walk

/-- The stretches that matchers cut a source into.  Every step takes at least one
character, so there are at most as many as the source has characters. -/
def cut (matchers : List Matcher) (source : Text) : List Stretch :=
  Walk.stretches source.length (Walk.start matchers source)

/-- The segments that matchers make of a source.  An empty source has none, and without
matchers there is nothing to look for, so that the source is kept. -/
def sweep (matchers : List Matcher) (source : Text) : List Segment :=
  if source.isEmpty then []
  else if matchers.isEmpty then [⟨.kept, source⟩]
  else (cut matchers source).map Stretch.segment

/-- Without matchers the first step of a walk keeps the whole source. -/
theorem Walk.step_start_nil {source : Text} (h : source ≠ []) :
    (start [] source).step
      = ([.kept source], { start [] source with head := ⟨source.length, []⟩ }) := by
  have hclaims : (start [] source).claims = [] := List.filterMap_eq_nil_iff.mpr fun _ _ => rfl
  rw [step, hclaims]
  simp [seek, start, Memo.fresh, Memo.askAll, Candidate.best?, keep, Head.advance, h]

/-- A walk that has reached the end makes no more stretches. -/
theorem Walk.stretches_of_le {walk : Walk} (h : walk.size ≤ walk.head.position) (limit : Nat) :
    walk.stretches limit = [] := by
  cases limit with
  | zero => rfl
  | succ limit => rw [stretches_succ, if_neg (Nat.not_lt.mpr h)]

/-- Without matchers a source is cut into one stretch, which is kept. -/
theorem cut_nil {source : Text} (h : source ≠ []) : cut [] source = [.kept source] := by
  obtain ⟨n, hn⟩ := Nat.exists_eq_add_of_lt (List.length_pos_iff.mpr h)
  rw [Nat.zero_add] at hn
  have hstart : (Walk.start [] source).head.position < (Walk.start [] source).size :=
    List.length_pos_iff.mpr h
  rw [cut, hn, Walk.stretches_succ, if_pos hstart, Walk.step_start_nil h]
  simp [Walk.stretches_of_le, Walk.start]

/-- **A sweep makes the segments of the stretches** into which the source is cut, also where it
does not have to cut it. -/
theorem sweep_eq_map_segment (matchers : List Matcher) (source : Text) :
    sweep matchers source = (cut matchers source).map Stretch.segment := by
  rw [sweep]
  split
  · next hempty =>
    rw [List.isEmpty_iff.mp hempty]
    rfl
  · next hsource =>
    rw [List.isEmpty_iff] at hsource
    split
    · next hempty =>
      rw [List.isEmpty_iff.mp hempty, cut_nil hsource]
      rfl
    · rfl

end RuleSweep
