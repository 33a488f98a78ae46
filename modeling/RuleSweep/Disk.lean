/-
# Disks

A disk holds files and folders, each at a place, which is the list of names that leads
there from the root.  A path is followed name by name, and every name but the last has
to be a folder; there are no links.  Names and paths have a greatest length, and a path
with a zero character leads nowhere.
-/
import RuleSweep.Path
import RuleSweep.Charset.Utf8

namespace RuleSweep

/-- A place on a disk: the names that lead to it from the root. -/
abbrev Place := List Text

/-- What is at a place. -/
inductive Node where
  /-- A file with its content. -/
  | file (content : Bytes)
  /-- A folder. -/
  | folder
  deriving DecidableEq, Repr

/-- Files and folders, and the current folder. -/
structure Disk where
  /-- The place where paths begin that do not begin at the root. -/
  current : Place
  /-- What is at the places below the root. -/
  nodes : List (Place × Node)
  deriving DecidableEq, Repr

/-! ## Faults -/

/-- Why something cannot be done on a disk. -/
inductive DiskFaultKind where
  /-- There is nothing at the place. -/
  | missing
  /-- There already is something. -/
  | taken
  /-- Something on the way is no folder. -/
  | noFolder
  /-- It is a folder. -/
  | folder
  /-- The path, or a name in it, is too long. -/
  | longName
  deriving DecidableEq, Repr

namespace DiskFaultKind

/-- The number by which a fault is known. -/
def number : DiskFaultKind → Nat
  | .missing => 2
  | .taken => 17
  | .noFolder => 20
  | .folder => 21
  | .longName => 36

/-- What is said of a fault. -/
def text : DiskFaultKind → Text
  | .missing => "No such file or directory".toList
  | .taken => "File exists".toList
  | .noFolder => "Not a directory".toList
  | .folder => "Is a directory".toList
  | .longName => "File name too long".toList

end DiskFaultKind

/-- Something that cannot be done with a path. -/
inductive DiskFault where
  /-- The disk refuses it; the path is given as written. -/
  | refused (kind : DiskFaultKind) (path : Text)
  /-- The path holds a zero character. -/
  | zeroInPath
  /-- Too many folders are missing on the way. -/
  | tooManyMissing
  deriving DecidableEq, Repr

/-- What is said of something that cannot be done with a path. -/
def DiskFault.message : DiskFault → Text
  | .refused kind path =>
    "[Errno ".toList ++ Text.decimal kind.number ++ "] ".toList ++ kind.text ++ ": ".toList
      ++ path.quoted
  | .zeroInPath => "embedded null byte".toList
  | .tooManyMissing => "maximum recursion depth exceeded while calling a Python object".toList

namespace Disk

/-! ## Places -/

/-- What is at a place; the root is a folder. -/
def node? (disk : Disk) (place : Place) : Option Node :=
  if place = [] then some .folder else disk.nodes.lookup place

/-- The nodes with one at a place, in the place of what was there. -/
def setNode (place : Place) (node : Node) : List (Place × Node) → List (Place × Node)
  | [] => [(place, node)]
  | entry :: rest =>
    if entry.1 = place then (place, node) :: rest else entry :: setNode place node rest

/-- The disk with something at a place. -/
def put (disk : Disk) (place : Place) (node : Node) : Disk :=
  { disk with nodes := setNode place node disk.nodes }

/-- The greatest length of a name in bytes. -/
def nameLimit : Nat := 255

/-- The greatest length of a written path in bytes. -/
def pathLimit : Nat := 4095

/-- A text takes more bytes than a limit allows. -/
def isLongerThan (limit : Nat) (t : Text) : Bool :=
  limit < (Utf8.encode t).length

/-- Follow names from a place; every place that is left has to be a folder. -/
def walk (disk : Disk) (place : Place) : List Text → Except DiskFaultKind Place
  | [] => .ok place
  | part :: rest =>
    match disk.node? place with
    | none => .error .missing
    | some (.file _) => .error .noFolder
    | some .folder =>
      if isLongerThan nameLimit part then .error .longName
      else disk.walk (if part = Path.upward then place.dropLast else place ++ [part]) rest

/-- The place that a path leads to; there need not be anything. -/
def place (disk : Disk) (path : Path) : Except DiskFaultKind Place :=
  if isLongerThan pathLimit path.text then .error .longName
  else disk.walk (if path.anchor = .here then disk.current else []) path.parts

/-! ## Looking -/

/-- What a path leads to, if there is anything.  It is a fault to ask for a path that is
too long; any other path that cannot be followed leads to nothing. -/
def look (disk : Disk) (path : Path) : Except DiskFault (Option Node) :=
  if path.hasZero then .ok none
  else
    match disk.place path with
    | .error .longName => .error (.refused .longName path.text)
    | .error _ => .ok none
    | .ok place => .ok (disk.node? place)

/-- The content of the file that a path leads to, if it is one. -/
def file? (disk : Disk) (path : Path) : Option Bytes :=
  match disk.look path with
  | .ok (some (.file content)) => some content
  | _ => none

/-- A path leads to a folder. -/
def isFolder (disk : Disk) (path : Path) : Bool :=
  match disk.look path with
  | .ok (some .folder) => true
  | _ => false

/-! ## Reading and writing -/

/-- Read the file that a path leads to. -/
def read (disk : Disk) (path : Path) : Except DiskFault Bytes :=
  if path.hasZero then .error .zeroInPath
  else
    match disk.place path with
    | .error kind => .error (.refused kind path.text)
    | .ok place =>
      match disk.node? place with
      | none => .error (.refused .missing path.text)
      | some .folder => .error (.refused .folder path.text)
      | some (.file content) => .ok content

/-- Change the content of the file that a path leads to, which is made if it is not
there. -/
def update (disk : Disk) (path : Path) (change : Bytes → Bytes) : Except DiskFault Disk :=
  if path.hasZero then .error .zeroInPath
  else
    match disk.place path with
    | .error kind => .error (.refused kind path.text)
    | .ok place =>
      match disk.node? place with
      | some .folder => .error (.refused .folder path.text)
      | some (.file content) => .ok (disk.put place (.file (change content)))
      | none => .ok (disk.put place (.file (change [])))

/-- Make the file that a path leads to hold just these bytes. -/
def write (disk : Disk) (path : Path) (content : Bytes) : Except DiskFault Disk :=
  disk.update path fun _ => content

/-- Add bytes at the end of the file that a path leads to. -/
def append (disk : Disk) (path : Path) (more : Bytes) : Except DiskFault Disk :=
  disk.update path fun content => content ++ more

/-! ## Making folders -/

/-- Make the folder that a path leads to; the folder that holds it has to be there. -/
def makeFolder (disk : Disk) (path : Path) : Except DiskFaultKind Disk :=
  match disk.place path with
  | .error kind => .error kind
  | .ok place =>
    match disk.node? place with
    | some _ => .error .taken
    | none => .ok (disk.put place .folder)

/-- The path from an anchor through parts that are given from the last to the first. -/
def pathBack (anchor : Anchor) (back : List Text) : Path :=
  ⟨anchor, back.reverse⟩

/-- Make a folder whose holder is there, unless it is there already. -/
def ensureOne (disk : Disk) (path : Path) : Except DiskFault Disk :=
  match disk.makeFolder path with
  | .ok made => .ok made
  | .error kind => if disk.isFolder path then .ok disk else .error (.refused kind path.text)

/-- How many folders may be made at once. -/
def missingLimit : Nat := 988

/-- Make a folder and all folders on the way to it, as far as they are missing and `room`
allows it.  The parts of its path are given from the last to the first.  When this fails,
the folders that were made before stay. -/
def ensureBack (anchor : Anchor) :
    (room : Nat) → (back : List Text) → Disk → Except DiskFault Unit × Disk
  | _, [], disk =>
    match disk.ensureOne (pathBack anchor []) with
    | .ok made => (.ok (), made)
    | .error e => (.error e, disk)
  | room, part :: back, disk =>
    let path := pathBack anchor (part :: back)
    match disk.makeFolder path with
    | .ok made => (.ok (), made)
    | .error .missing =>
      match room with
      | 0 => (.error .tooManyMissing, disk)
      | room + 1 =>
        match ensureBack anchor room back disk with
        | (.error e, disk) => (.error e, disk)
        | (.ok (), disk) =>
          match disk.ensureOne path with
          | .ok made => (.ok (), made)
          | .error e => (.error e, disk)
    | .error kind =>
      if disk.isFolder path then (.ok (), disk) else (.error (.refused kind path.text), disk)

/-- Make the folder that a path leads to and all folders on the way, as far as they are
missing. -/
def ensureFolder (disk : Disk) (path : Path) : Except DiskFault Unit × Disk :=
  if path.hasZero then (.error .zeroInPath, disk)
  else ensureBack path.anchor (missingLimit - 1) path.parts.reverse disk

/-- Make a file hold just these bytes, and make the folders on the way to it as far as
they are missing. -/
def save (disk : Disk) (path : Path) (content : Bytes) : Except DiskFault Unit × Disk :=
  match disk.ensureFolder path.parent with
  | (.error e, disk) => (.error e, disk)
  | (.ok (), disk) =>
    match disk.write path content with
    | .error e => (.error e, disk)
    | .ok written => (.ok (), written)

end Disk

end RuleSweep
