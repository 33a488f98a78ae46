/-
# Journal entries

What a run reports about itself: a message, how grave it is, and which part of the
program reports it.
-/
import RuleSweep.Text.Numeral

namespace RuleSweep

/-- How grave a journal entry is: the higher the number, the graver. -/
structure Level where
  /-- The number. -/
  rank : Int
  deriving DecidableEq, Repr

namespace Level

/-- Nothing is said about it. -/
def unset : Level := ⟨0⟩

/-- A detail for whoever looks for a fault. -/
def debug : Level := ⟨10⟩

/-- The normal course of a run. -/
def info : Level := ⟨20⟩

/-- Something was left out. -/
def warning : Level := ⟨30⟩

/-- A run or a part of it failed. -/
def error : Level := ⟨40⟩

/-- The program cannot go on. -/
def critical : Level := ⟨50⟩

/-- The levels that have a name, from the least grave to the gravest. -/
def named : List (Level × Text) :=
  [(unset, "NOTSET".toList), (debug, "DEBUG".toList), (info, "INFO".toList),
   (warning, "WARNING".toList), (error, "ERROR".toList), (critical, "CRITICAL".toList)]

/-- How a level is called; one that has no name is called by its number. -/
def name (level : Level) : Text :=
  (named.lookup level).getD ("Level ".toList ++ Text.signedDecimal level.rank)

/-- Other names of levels. -/
def otherNames : List (Text × Level) :=
  [("WARN".toList, warning), ("FATAL".toList, critical)]

/-- The level of a name. -/
def ofName? (name : Text) : Option Level :=
  ((named.map Prod.swap).lookup name).or (otherNames.lookup name)

/-- An entry of the level `entry` belongs into a journal of the level `journal`: it is at
least as grave, and something is said about it. -/
def admits (journal entry : Level) : Bool :=
  0 < entry.rank && journal.rank ≤ entry.rank

end Level

/-- What is written down in a journal. -/
structure Entry where
  /-- How grave it is. -/
  level : Level
  /-- Which part of the program reports it. -/
  reporter : Text
  /-- What is reported. -/
  message : Text
  deriving DecidableEq, Repr

namespace Entry

/-- The name of the reporter as it is written; one without a name is the root. -/
def reporterName (entry : Entry) : Text :=
  if entry.reporter = [] then "root".toList else entry.reporter

/-- An entry as it stands in a journal, without the time and without the newline. -/
def text (entry : Entry) : Text :=
  '[' :: entry.level.name ++ "] ".toList ++ entry.reporterName ++ ": ".toList
    ++ entry.message

end Entry

end RuleSweep
