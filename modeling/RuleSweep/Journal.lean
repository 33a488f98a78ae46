/-
# Journals

A journal is a list of files.  Every entry that is grave enough is added as a line at the
end of each of them.  That is what happens below `Journal.rotationSize`: a file that would
grow to that size is put aside before the line is added, and what becomes of it then is not
described here.
-/
import RuleSweep.Journal.Entry
import RuleSweep.Charset.Utf8
import RuleSweep.Disk
import RuleSweep.Moment

namespace RuleSweep

/-- A journal. -/
structure Journal where
  /-- Entries below this level are left out. -/
  level : Level
  /-- The files, by their paths from the root, in the order in which they were added. -/
  files : List Path
  deriving DecidableEq, Repr

namespace Journal

/-- The size that no file of a journal reaches, in bytes: a line that would bring a file to
it goes to a new file, and the old one gets another name. -/
def rotationSize : Nat := 5 * 1024 * 1024

/-- The journal that no one has set up. -/
def unset : Journal := ⟨.warning, []⟩

/-- Set the level of a journal and add a file to it, unless the file is there already.
The folders on the way to the file are made as far as they are missing; when that fails,
the journal stays as it is. -/
def attach (target : Path) (level : Level) (journal : Journal) (disk : Disk) :
    Except DiskFault Unit × Journal × Disk :=
  match disk.ensureFolder target.parent with
  | (.error e, disk) => (.error e, journal, disk)
  | (.ok (), disk) =>
    let file := target.absolute disk.current
    if file ∈ journal.files then (.ok (), ⟨level, journal.files⟩, disk)
    else
      match disk.append file [] with
      | .error e => (.error e, ⟨level, journal.files⟩, disk)
      | .ok disk => (.ok (), ⟨level, journal.files ++ [file]⟩, disk)

/-- An entry as a line of a file. -/
def line (now : Moment) (entry : Entry) : Bytes :=
  Utf8.encode (now.stamp ++ ' ' :: entry.text ++ ['\n'])

/-- Add a line at the end of each of several files, none of which it brings to
`rotationSize`. -/
def addLine (line : Bytes) (disk : Disk) : List Path → Disk
  | [] => disk
  | file :: files =>
    match disk.append file line with
    | .ok disk => addLine line disk files
    | .error _ => addLine line disk files

/-- Write an entry down, if it is grave enough. -/
def write (journal : Journal) (now : Moment) (entry : Entry) (disk : Disk) : Disk :=
  if journal.level.admits entry.level then addLine (line now entry) disk journal.files
  else disk

/-- Write several entries down, one after the other. -/
def writeAll (journal : Journal) (now : Moment) (entries : List Entry) (disk : Disk) : Disk :=
  entries.foldl (fun disk entry => journal.write now entry disk) disk

end Journal

end RuleSweep
