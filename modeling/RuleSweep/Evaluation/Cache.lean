/-
# A cache for rule sets

The rule set of a rule list can be kept for the next evaluation, which then saves making
it again as long as the rule list stays the same.
-/
import RuleSweep.Evaluation

namespace RuleSweep

/-- A place for one rule set together with the rule list it was made from. -/
structure Cache where
  /-- The rule list and its rule set, if there is one. -/
  held : Option (Text × RuleSet)
  deriving DecidableEq, Repr

namespace Cache

/-- Nothing is held. -/
def empty : Cache := ⟨none⟩

/-- The rule list whose rule set is held. -/
def list? (cache : Cache) : Option Text :=
  cache.held.map Prod.fst

/-- Make the rule set of a rule list and hold it.  If it cannot be made, the cache stays
as it is. -/
def renew (list : Text) (cache : Cache) : Except NumeralTooLong RuleSet × Cache :=
  match RuleSet.ofList list with
  | .error e => (.error e, cache)
  | .ok set => (.ok set, ⟨some (list, set)⟩)

/-- The rule set of a rule list: the one that is held, if it was made from this very
list, and a new one otherwise. -/
def get (list : Text) (cache : Cache) : Except NumeralTooLong RuleSet × Cache :=
  match cache.held with
  | none => cache.renew list
  | some (heldList, set) => if list = heldList then (.ok set, cache) else cache.renew list

/-- Hold nothing any more. -/
def invalidate (_ : Cache) : Cache :=
  empty

/-- What a rule list answers on a source, with the rule set from the cache.  An empty
source leaves the cache alone. -/
def evaluateBy (sweeper : Sweeper) (source list : Text) (cache : Cache) :
    Except EvaluationFault Result × Cache :=
  if source.isEmpty then (.ok .empty, cache)
  else
    match cache.get list with
    | (.error e, cache) => (.error (.numeral e), cache)
    | (.ok set, cache) => (set.apply sweeper source, cache)

/-- The second cache still holds what the first one held. -/
def keeps (before after : Cache) : Bool :=
  before.held.isSome && before.list? = after.list?

end Cache

end RuleSweep
