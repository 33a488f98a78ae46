/-
# Evaluating a rule list

A rule list is evaluated on a source: the rules become matchers, the matchers sweep the
source, and the segments are counted.  An empty source is left alone, whatever the rules
are.  The sweep is a parameter, so that an evaluation can also be told what happens when
a sweep breaks off.
-/
import RuleSweep.Sweep
import RuleSweep.Journal.Entry

namespace RuleSweep

/-! ## Results -/

/-- What an evaluation answers. -/
structure Result where
  /-- The segments of the new text. -/
  segments : List Segment
  /-- How many segments were marked. -/
  matchCount : Nat
  /-- How many segments were replaced. -/
  replaceCount : Nat
  /-- The rules that were skipped. -/
  skipped : List Rule
  deriving DecidableEq, Repr

namespace Result

/-- Nothing happened. -/
def empty : Result := ⟨[], 0, 0, []⟩

/-- The new text. -/
def text (result : Result) : Text :=
  Segment.textOf result.segments

/-- Count one segment in and put it at the front. -/
def count (segment : Segment) (result : Result) : Result :=
  match segment.kind with
  | .kept => { result with segments := segment :: result.segments }
  | .added =>
    { result with segments := segment :: result.segments
                  matchCount := result.matchCount + 1 }
  | .replaced =>
    { result with segments := segment :: result.segments
                  replaceCount := result.replaceCount + 1 }

/-- The result of a sweep that made the given segments. -/
def assemble (segments : List Segment) (skipped : List Rule) : Result :=
  segments.foldr count { empty with skipped }

end Result

/-! ## Evaluation -/

/-- Why an evaluation failed. -/
inductive EvaluationFault where
  /-- A rule names a capture by a numeral that is too long. -/
  | numeral (e : NumeralTooLong)
  /-- The sweep broke off. -/
  | brokenOff (reason : Text)
  deriving DecidableEq, Repr

/-- What is said of an evaluation that failed. -/
def EvaluationFault.message : EvaluationFault → Text
  | .numeral e => e.message
  | .brokenOff reason => "Evaluation failed: ".toList ++ reason

/-- A way to sweep a source, which may break off for a reason. -/
abbrev Sweeper := List Matcher → Text → Except Text (List Segment)

/-- The sweep that never breaks off. -/
def Sweeper.steady : Sweeper :=
  fun matchers source => .ok (sweep matchers source)

/-- A sweep that always breaks off for the given reason. -/
def Sweeper.broken (reason : Text) : Sweeper :=
  fun _ _ => .error reason

/-- What a rule set answers on a source. -/
def RuleSet.apply (sweeper : Sweeper) (set : RuleSet) (source : Text) :
    Except EvaluationFault Result :=
  match sweeper set.matchers source with
  | .error reason => .error (.brokenOff reason)
  | .ok segments => .ok (Result.assemble segments set.skipped)

/-- What a rule list answers on a source, by a given sweep. -/
def evaluateBy (sweeper : Sweeper) (source list : Text) : Except EvaluationFault Result :=
  if source.isEmpty then .ok .empty
  else
    match RuleSet.ofList list with
    | .error e => .error (.numeral e)
    | .ok set => set.apply sweeper source

/-- What a rule list answers on a source. -/
def evaluate (source list : Text) : Except EvaluationFault Result :=
  evaluateBy .steady source list

/-! ## What is written down about an evaluation -/

/-- The entry for a rule that was skipped. -/
def Rule.skippedEntry (rule : Rule) : Entry :=
  ⟨.warning, "tms.matchers".toList,
    "Skipping rule on line ".toList ++ Text.signedDecimal rule.number ++ " (".toList
      ++ rule.row.quoted ++ "): ".toList ++ rule.warning⟩

/-- The entry for a result that a number of rules gave. -/
def Result.entry (rules : Nat) (result : Result) : Entry :=
  ⟨.info, "tms.engine".toList,
    "Evaluation finished. rules=".toList ++ Text.decimal rules
      ++ " matches=".toList ++ Text.decimal result.matchCount
      ++ " replacements=".toList ++ Text.decimal result.replaceCount⟩

/-- The entry for a sweep that broke off. -/
def brokenOffEntry : Entry :=
  ⟨.error, "tms.engine".toList, "Evaluation failed".toList⟩

/-- What an evaluation with the given outcome writes down: the skipped rules, and then
how it ended.  About an empty source there is nothing to write. -/
def evaluationEntries (source list : Text) (outcome : Except EvaluationFault Result) :
    List Entry :=
  if source.isEmpty then []
  else
    (RuleSet.skippedIn (Rule.ofList list)).map Rule.skippedEntry
      ++ match RuleSet.ofList list, outcome with
        | .ok set, .ok result => [result.entry set.matchers.length]
        | .ok _, .error _ => [brokenOffEntry]
        | .error _, _ => []

end RuleSweep
