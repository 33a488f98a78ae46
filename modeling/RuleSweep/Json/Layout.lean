/-
# JSON documents, line by line

A value as a document of ASCII characters.  Every item of an array and every field of an
object stands on a line of its own, two spaces further in than the line on which the array
or the object begins.
-/
import RuleSweep.Json

namespace RuleSweep

namespace Json

/-! ## Strings -/

/-- How a code point is written in a string; a surrogate that belongs to no pair is written
as a unit. -/
def writtenCodePoint (n : Nat) : Text :=
  if isSurrogate n then escapeUnit n else quotedChar .ascii (Char.ofNat n)

/-- How the string of code points is written. -/
def writtenString (codePoints : List Nat) : Text :=
  '"' :: codePoints.flatMap writtenCodePoint ++ ['"']

/-! ## Blocks -/

/-- A new line that is `depth` steps further in. -/
def newLine (depth : Nat) : Text :=
  '\n' :: List.replicate (2 * depth) ' '

/-- The parts of a container between its brackets, one step further in than the container
itself; without parts the brackets stand side by side. -/
def block (opening closing : Char) (depth : Nat) : List Text → Text
  | [] => [opening, closing]
  | parts =>
    opening :: newLine (depth + 1) ++ Text.joinWith (',' :: newLine (depth + 1)) parts
      ++ newLine depth ++ [closing]

/-- How a truth value is written. -/
def writtenBool : Bool → Text
  | true => "true".toList
  | false => "false".toList

/-! ## Values -/

mutual

/-- How a value is written that begins on a line `depth` steps further in. -/
def Value.written (depth : Nat) : Value → Text
  | .null => "null".toList
  | .bool value => writtenBool value
  | .integer value => Text.signedDecimal value
  | .real written => written
  | .string codePoints => writtenString codePoints
  | .array items => block '[' ']' depth (writtenItems (depth + 1) items)
  | .object fields => block '{' '}' depth (writtenFields (depth + 1) fields)

/-- How the items of an array are written. -/
def writtenItems (depth : Nat) : List Value → List Text
  | [] => []
  | item :: items => item.written depth :: writtenItems depth items

/-- How the fields of an object are written. -/
def writtenFields (depth : Nat) : List (List Nat × Value) → List Text
  | [] => []
  | field :: fields => writtenField depth field :: writtenFields depth fields

/-- How a field of an object is written. -/
def writtenField (depth : Nat) : List Nat × Value → Text
  | (name, value) => writtenString name ++ ": ".toList ++ value.written depth

end

/-- A value as a document. -/
def Value.document (value : Value) : Text :=
  value.written 0

end Json

end RuleSweep
