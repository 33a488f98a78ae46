/-
# The name of a result file

A result is saved under the name of its source and the moment of saving.
-/
import RuleSweep.Moment
import RuleSweep.Path

namespace RuleSweep

/-- The name of the file for the result of a source; if the source has no name, it is
called `result`. -/
def resultFileName (source : Text) (now : Moment) : Text :=
  let stem := (Path.ofText source).stem
  "TMS-".toList ++ (if stem = [] then "result".toList else stem) ++ '_' :: now.brief
    ++ ".txt".toList

end RuleSweep
