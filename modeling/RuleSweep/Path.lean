/-
# Paths

A path leads from an anchor through named parts to a file or a folder.  Empty parts and
parts `.` do not count; a part `..` leads to the folder above and is kept.
-/
import RuleSweep.Text

namespace RuleSweep

/-- Where a path begins. -/
inductive Anchor where
  /-- At the current folder. -/
  | here
  /-- At the root. -/
  | root
  /-- At the root, written with exactly two slashes. -/
  | doubleRoot
  deriving DecidableEq, Repr

/-- How an anchor is written. -/
def Anchor.text : Anchor → Text
  | .here => []
  | .root => "/".toList
  | .doubleRoot => "//".toList

/-- A path to a file or a folder. -/
structure Path where
  /-- Where it begins. -/
  anchor : Anchor
  /-- The names on the way, none of which is empty or `.`. -/
  parts : List Text
  deriving DecidableEq, Repr

namespace Path

/-- The part that leads to the folder above. -/
def upward : Text := "..".toList

/-- A part that leads nowhere. -/
def isIdle (part : Text) : Bool :=
  part.isEmpty || part = ['.']

/-- The anchor of a written path. -/
def anchorOf : Text → Anchor
  | '/' :: '/' :: '/' :: _ => .root
  | '/' :: '/' :: _ => .doubleRoot
  | '/' :: _ => .root
  | _ => .here

/-- The path that is written so. -/
def ofText (t : Text) : Path :=
  ⟨anchorOf t, (Text.cutEvery '/' t).filter (!isIdle ·)⟩

/-- How a path is written; the path to the current folder is a dot. -/
def text (path : Path) : Text :=
  if path.anchor = .here ∧ path.parts = [] then ['.']
  else path.anchor.text ++ Text.joinWith ['/'] path.parts

/-- The last part, which names the file or the folder. -/
def name (path : Path) : Text :=
  path.parts.getLast?.getD []

/-- A part of the path holds a zero character. -/
def hasZero (path : Path) : Bool :=
  path.parts.any (·.contains '\x00')

/-- The path to the folder that holds the file or the folder. -/
def parent (path : Path) : Path :=
  ⟨path.anchor, path.parts.dropLast⟩

/-- The path to a file or a folder of the given name in a folder. -/
def child (path : Path) (name : Text) : Path :=
  ⟨path.anchor, path.parts ++ [name]⟩

/-- The name up to its last dot.  A dot at the beginning or at the end of the name does
not count. -/
def stem (path : Path) : Text :=
  match path.name.reverse.span (· ≠ '.') with
  | (_ :: _, '.' :: c :: rest) => (c :: rest).reverse
  | _ => path.name

/-- Follow parts from a place that is given by its parts from the root, without looking
at what is there. -/
def follow (place : List Text) : List Text → List Text
  | [] => place
  | part :: rest =>
    follow (if part = upward then place.dropLast else place ++ [part]) rest

/-- The path from the root, without any `..`, to what a path leads to from a place. -/
def absolute (place : List Text) (path : Path) : Path :=
  match path.anchor with
  | .here => ⟨.root, follow place path.parts⟩
  | anchor => ⟨anchor, follow [] path.parts⟩

end Path

end RuleSweep
