/-
# The program

A run on a real disk.  What the run may look at is read first, the run itself is
`CommandLine.run`, and what it has changed is written back.  The file of the journal is
taken to be empty, and what the run has written into it is added at its end.
-/
import RuleSweep.CommandLine
import Std.Time.DateTime
import Std.Time.Zoned

namespace RuleSweep

namespace Program

/-- The place of a written path from the root. -/
def placeOf (path : String) : Place :=
  (Path.ofText path.toList).parts

/-- How a place is written as a path from the root. -/
def pathText (place : Place) : String :=
  String.ofList (Path.text ⟨.root, place⟩)

/-- A place and all folders on the way to it, from the root on. -/
def onTheWay (place : Place) : List Place :=
  (List.range place.length).map fun n => place.take (n + 1)

/-- The places that are looked at when a path is followed. -/
def placesOf (current : Place) (path : Path) : List Place :=
  let start := if path.anchor = .here then current else []
  (List.range (path.parts.length + 1)).flatMap fun n =>
    onTheWay (Path.follow start (path.parts.take n))

/-- The paths that a run may follow. -/
def pathsOf (environment : CommandLine.Environment) (args : CommandLine.Arguments) : List Path :=
  [environment.home.journal, args.config.getD environment.home.settings, args.source]
    ++ args.rules.toList
    ++ args.saveDir.join.toList.map (·.child (resultFileName args.source.name environment.now))

/-- The moment that the clock shows. -/
def now : IO Moment := do
  let time ← Std.Time.PlainDateTime.now
  return ⟨time.year.toInt.toNat, time.month.toNat, time.day.toNat, time.hour.toNat,
    time.minute.toNat, time.second.toNat⟩

/-- What is at a place of the real disk. -/
def look (journal place : Place) : IO (Option Node) := do
  let file := (← IO.currentDir) / pathText place
  if ← file.isDir then return some .folder
  else if ← file.pathExists then
    if place = journal then return some (.file [])
    else return some (.file (← IO.FS.readBinFile file).toList)
  else return none

/-- The part of the real disk that consists of the given places. -/
def snapshot (current journal : Place) (places : List Place) : IO Disk := do
  let mut nodes := []
  for place in places.eraseDups do
    match ← look journal place with
    | some node => nodes := (place, node) :: nodes
    | none => pure ()
  return ⟨current, nodes.reverse⟩

/-- Bring the changes from one disk to another onto the real disk. -/
def writeBack (journal : Place) (before after : Disk) : IO Unit := do
  for (place, node) in after.nodes do
    if before.node? place ≠ some node then
      let path := pathText place
      match node with
      | .folder => IO.FS.createDirAll path
      | .file content =>
        let bytes := ByteArray.mk content.toArray
        if place = journal then
          IO.FS.withFile path .append fun file => file.write bytes
        else IO.FS.writeBinFile path bytes

/-- Run the program with the given words, from the place `current`. -/
def runAt (current : Place) (home : Home) (words : List Text) : IO UInt32 := do
  let environment : CommandLine.Environment := ⟨home, ← now, .steady⟩
  let journal := home.journal.parts
  let disk ←
    match CommandLine.Arguments.ofWords words with
    | .ok args =>
      snapshot current journal
        (onTheWay current ++ (pathsOf environment args).flatMap (placesOf current))
    | .error _ => pure ⟨current, []⟩
  let (ending, session) := CommandLine.run environment words disk
  writeBack journal disk session.disk
  IO.print (String.ofList session.out)
  IO.eprint (String.ofList session.err)
  match ending with
  | .exit code => return code.toUInt32
  | .escaped e =>
    IO.eprintln (String.ofList e.message)
    return 1

/-- Run the program with the given words. -/
def run (words : List String) : IO UInt32 := do
  let current := placeOf (← IO.currentDir).toString
  let program := Path.ofText (← IO.appPath).toString.toList
  match Home.ofProgram current program with
  | .ok home => runAt current home (words.map String.toList)
  | .error e =>
    IO.eprintln (String.ofList e.message)
    return 1

end Program

end RuleSweep

/-- The program. -/
def main (words : List String) : IO UInt32 :=
  RuleSweep.Program.run words
