/-
# Candidates

A candidate is the next find of a matcher in the part of the source that lies ahead.
Looking for it can mean reading that part to its end, so an answer is remembered: it
stays right until the head has moved past its start, and when nothing was found, nothing
will be found later.
-/
import RuleSweep.Matcher

namespace RuleSweep

/-- A place in a source: its position, and what lies ahead of it. -/
structure Head where
  /-- The number of characters that lie behind. -/
  position : Nat
  /-- The rest of the source. -/
  ahead : Text
  deriving DecidableEq, Repr

/-- The head a number of characters further on. -/
def Head.advance (head : Head) (n : Nat) : Head :=
  ⟨head.position + n, head.ahead.drop n⟩

/-- A find of a pattern, at its place in the source. -/
structure Candidate where
  /-- The position where it begins. -/
  start : Nat
  /-- The text that was found. -/
  text : Text
  /-- What the wildcards found. -/
  groups : Groups
  deriving DecidableEq, Repr

namespace Candidate

/-- The position right after what was found. -/
def stop (candidate : Candidate) : Nat :=
  candidate.start + candidate.text.length

/-- The leftmost find of a pattern at or behind a head. -/
def next? (pattern : Pattern) (head : Head) : Option Candidate :=
  (pattern.find? head.ahead).map fun found =>
    ⟨head.position + found.skipped, (head.ahead.drop found.skipped).take found.hit.length,
      found.hit.groups⟩

/-- A candidate is preferred to an earlier rule's if it begins further to the left, or
at the same place and is longer. -/
def beats (candidate other : Candidate) : Bool :=
  candidate.start < other.start
    || (candidate.start = other.start && other.text.length < candidate.text.length)

/-- A candidate ends at or before a limit, and begins before it. -/
def fitsBefore (limit : Nat) (candidate : Candidate) : Bool :=
  candidate.start < limit && candidate.stop ≤ limit

/-- The candidate that no other one beats; among equals, that of the earliest rule. -/
def best? : List (Matcher × Candidate) → Option (Matcher × Candidate)
  | [] => none
  | entry :: others =>
    match best? others with
    | none => some entry
    | some other => if other.2.beats entry.2 then some other else some entry

end Candidate

/-! ## What is remembered -/

/-- What is remembered of the next find of one matcher. -/
inductive Slot where
  /-- It was not looked for yet. -/
  | unasked
  /-- It was found, and is still right as long as it begins at or behind the head. -/
  | found (candidate : Candidate)
  /-- There is none. -/
  | exhausted
  deriving DecidableEq, Repr

namespace Slot

/-- What is to be remembered of an answer. -/
def ofAnswer : Option Candidate → Slot
  | none => .exhausted
  | some candidate => .found candidate

/-- Look for the next find of a pattern at or behind a head, and remember it. -/
def renew (pattern : Pattern) (head : Head) : Option Candidate × Slot :=
  (Candidate.next? pattern head, ofAnswer (Candidate.next? pattern head))

/-- The next find of a pattern at or behind a head, and what to remember of it. -/
def ask (pattern : Pattern) (head : Head) : Slot → Option Candidate × Slot
  | .unasked => renew pattern head
  | .found candidate =>
    if head.position ≤ candidate.start then (some candidate, .found candidate)
    else renew pattern head
  | .exhausted => (none, .exhausted)

end Slot

/-- What is remembered of the next finds of several matchers. -/
abbrev Memo := List (Matcher × Slot)

namespace Memo

/-- Nothing is remembered of these matchers yet. -/
def fresh (matchers : List Matcher) : Memo :=
  matchers.map fun matcher => (matcher, .unasked)

/-- The next finds of all matchers at or behind a head, and what to remember of them. -/
def askAll (head : Head) : Memo → List (Matcher × Candidate) × Memo
  | [] => ([], [])
  | (matcher, slot) :: rest =>
    let (answer, slot) := slot.ask matcher.pattern head
    let (answers, memo) := askAll head rest
    match answer with
    | none => (answers, (matcher, slot) :: memo)
    | some candidate => ((matcher, candidate) :: answers, (matcher, slot) :: memo)

end Memo

end RuleSweep
