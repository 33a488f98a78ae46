/-
# JSON documents

Reading a JSON document.  Besides what the format allows, `NaN`, `Infinity` and
`-Infinity` are numbers, and a string may hold a surrogate that belongs to no pair, so
strings are read as lists of code points.  A whole number with too many digits and a value
that lies too deep are faults of their own, which are met in the order of reading.
-/
import RuleSweep.Json.Quoted

namespace RuleSweep

namespace Json

/-- A JSON value. -/
inductive Value where
  /-- The null value. -/
  | null
  /-- A truth value. -/
  | bool (value : Bool)
  /-- A number without fraction and exponent. -/
  | integer (value : Int)
  /-- Any other number, as written. -/
  | real (written : Text)
  /-- A string, by its code points. -/
  | string (codePoints : List Nat)
  /-- An array. -/
  | array (items : List Value)
  /-- An object, by its fields in the order in which they are written. -/
  | object (fields : List (List Nat × Value))
  deriving Repr, Inhabited

/-- A text as a value. -/
def Value.ofText (t : Text) : Value :=
  .string (t.map Char.toNat)

/-- What holds other values. -/
inductive Container where
  /-- An array. -/
  | array
  /-- An object. -/
  | object
  deriving DecidableEq, Repr

/-- The name of a container. -/
def Container.name : Container → Text
  | .array => "array".toList
  | .object => "object".toList

/-- A container lies in too many others. -/
structure TooDeep where
  /-- What lies too deep. -/
  container : Container
  deriving DecidableEq, Repr

/-- What is said of a container that lies too deep. -/
def TooDeep.message (e : TooDeep) : Text :=
  "maximum recursion depth exceeded while decoding a JSON ".toList ++ e.container.name
    ++ " from a unicode string".toList

/-- How many containers may lie in each other. -/
def maxDepth : Nat := 990

/-- Why a document cannot be read. -/
inductive Fault where
  /-- It is no JSON document. -/
  | malformed
  /-- A whole number in it has too many digits. -/
  | numeral (e : NumeralTooLong)
  /-- A container in it lies too deep. -/
  | tooDeep (e : TooDeep)
  deriving DecidableEq, Repr

/-- The value of the last field of a given name. -/
def Value.lastField? (name : Text) (fields : List (List Nat × Value)) : Option Value :=
  (fields.reverse.find? fun field => field.1 = name.map Char.toNat).map Prod.snd

/-- The fields of an object with every name once, at the place of its first field and with
the value of its last. -/
def Value.distinctFields (fields : List (List Nat × Value)) : List (List Nat × Value) :=
  (fields.map Prod.fst).eraseDups.filterMap fun name =>
    fields.reverse.find? fun field => field.1 = name

/-! ## Blanks, strings and numbers -/

/-- The blanks of the format. -/
def isBlank (c : Char) : Bool :=
  c = ' ' || c = '\t' || c = '\n' || c = '\r'

/-- A text from its first character that is no blank. -/
def skipBlanks (t : Text) : Text :=
  t.dropWhile isBlank

/-- The value of a hexadecimal digit. -/
def hexValue? (c : Char) : Option Nat :=
  if isDigit c then some (c.toNat - '0'.toNat)
  else if 'a' ≤ c ∧ c ≤ 'f' then some (c.toNat - 'a'.toNat + 10)
  else if 'A' ≤ c ∧ c ≤ 'F' then some (c.toNat - 'A'.toNat + 10)
  else none

/-- The unit that four hexadecimal digits stand for. -/
def unit? (a b c d : Char) : Option Nat := do
  let a ← hexValue? a
  let b ← hexValue? b
  let c ← hexValue? c
  let d ← hexValue? d
  return ((a * 16 + b) * 16 + c) * 16 + d

/-- What a backslash and a letter stand for. -/
def escaped? : Char → Option Nat
  | '"' => some 0x22
  | '\\' => some 0x5C
  | '/' => some 0x2F
  | 'b' => some 0x08
  | 'f' => some 0x0C
  | 'n' => some 0x0A
  | 'r' => some 0x0D
  | 't' => some 0x09
  | _ => none

/-- The units of a string up to its closing quote, and what follows it. -/
def readUnits : Text → Option (List Nat × Text)
  | [] => none
  | '"' :: rest => some ([], rest)
  | '\\' :: 'u' :: a :: b :: c :: d :: rest =>
    match unit? a b c d, readUnits rest with
    | some unit, some (units, rest) => some (unit :: units, rest)
    | _, _ => none
  | '\\' :: c :: rest =>
    match escaped? c, readUnits rest with
    | some unit, some (units, rest) => some (unit :: units, rest)
    | _, _ => none
  | c :: rest =>
    if c.toNat < 0x20 then none
    else (readUnits rest).map fun (units, rest) => (c.toNat :: units, rest)

/-- Join every high surrogate with a low one that follows it. -/
def joinPairs : List Nat → List Nat
  | [] => []
  | [unit] => [unit]
  | high :: low :: rest =>
    if isHighSurrogate high && isLowSurrogate low then
      joinSurrogates high low :: joinPairs rest
    else high :: joinPairs (low :: rest)

/-- The code points of a string behind its opening quote, and what follows it. -/
def readString (t : Text) : Option (List Nat × Text) :=
  (readUnits t).map fun (units, rest) => (joinPairs units, rest)

/-- The digits at the beginning of a text, and the rest. -/
def spanDigits (t : Text) : Text × Text :=
  (t.takeWhile isDigit, t.dropWhile isDigit)

/-- The digits in front of the point of a number, and the rest; a zero stands alone. -/
def spanWhole : Text → Text × Text
  | '0' :: rest => (['0'], rest)
  | t => spanDigits t

/-- The fraction at the beginning of a text, and the rest. -/
def spanFraction : Text → Text × Text
  | '.' :: rest =>
    match spanDigits rest with
    | ([], _) => ([], '.' :: rest)
    | (digits, rest) => ('.' :: digits, rest)
  | t => ([], t)

/-- The sign at the beginning of a text, and the rest. -/
def spanSign : Text → Text × Text
  | '+' :: rest => (['+'], rest)
  | '-' :: rest => (['-'], rest)
  | t => ([], t)

/-- The exponent at the beginning of a text, and the rest. -/
def spanExponent : Text → Text × Text
  | [] => ([], [])
  | c :: rest =>
    if c = 'e' ∨ c = 'E' then
      let (sign, digits) := spanSign rest
      match spanDigits digits with
      | ([], _) => ([], c :: rest)
      | (digits, rest) => (c :: sign ++ digits, rest)
    else ([], c :: rest)

/-- The number whose sign has been read, and what follows it. -/
def readUnsigned (negative : Bool) (t : Text) : Except Fault (Value × Text) :=
  match spanWhole t with
  | ([], _) => .error .malformed
  | (digits, rest) =>
    let (fraction, rest) := spanFraction rest
    let (exponent, rest) := spanExponent rest
    if fraction = [] ∧ exponent = [] then
      match readNumeral digits with
      | .error e => .error (.numeral e)
      | .ok n => .ok (.integer (if negative then -(n : Int) else n), rest)
    else
      .ok (.real ((if negative then ['-'] else []) ++ digits ++ fraction ++ exponent), rest)

/-- The number at the beginning of a text, and what follows it. -/
def readNumber : Text → Except Fault (Value × Text)
  | '-' :: rest => readUnsigned true rest
  | t => readUnsigned false t

/-- The words that are values. -/
def words : List (Text × Value) :=
  [("null".toList, .null), ("true".toList, .bool true), ("false".toList, .bool false),
   ("NaN".toList, .real "NaN".toList), ("Infinity".toList, .real "Infinity".toList),
   ("-Infinity".toList, .real "-Infinity".toList)]

/-- The word or number at the beginning of a text, and what follows it. -/
def readScalar (t : Text) : Except Fault (Value × Text) :=
  match words.find? fun word => word.1.isPrefixOf t with
  | some (word, value) => .ok (value, t.drop word.length)
  | none => readNumber t

/-! ## Values and documents -/

mutual

/-- The value at the beginning of a text, and what follows it.  As many more containers as
`room` says may lie in each other; `limit` bounds the descent. -/
def readValue : (limit room : Nat) → Text → Except Fault (Value × Text)
  | 0, _, _ => .error .malformed
  | limit + 1, room, t =>
    match t with
    | '"' :: rest =>
      match readString rest with
      | none => .error .malformed
      | some (codePoints, rest) => .ok (.string codePoints, rest)
    | '{' :: rest =>
      match room with
      | 0 => .error (.tooDeep ⟨.object⟩)
      | room + 1 =>
        match skipBlanks rest with
        | '}' :: rest => .ok (.object [], rest)
        | rest =>
          (readFields limit room rest).map fun (fields, rest) => (.object fields, rest)
    | '[' :: rest =>
      match room with
      | 0 => .error (.tooDeep ⟨.array⟩)
      | room + 1 =>
        match skipBlanks rest with
        | ']' :: rest => .ok (.array [], rest)
        | rest => (readItems limit room rest).map fun (items, rest) => (.array items, rest)
    | t => readScalar t

/-- The items of an array from the beginning of one of them on, and what follows the
array. -/
def readItems : (limit room : Nat) → Text → Except Fault (List Value × Text)
  | 0, _, _ => .error .malformed
  | limit + 1, room, t =>
    match readValue limit room t with
    | .error e => .error e
    | .ok (item, rest) =>
      match skipBlanks rest with
      | ']' :: rest => .ok ([item], rest)
      | ',' :: rest =>
        (readItems limit room (skipBlanks rest)).map
          fun (items, rest) => (item :: items, rest)
      | _ => .error .malformed

/-- The fields of an object from the beginning of one of them on, and what follows the
object. -/
def readFields : (limit room : Nat) → Text → Except Fault (List (List Nat × Value) × Text)
  | 0, _, _ => .error .malformed
  | limit + 1, room, t =>
    match t with
    | '"' :: rest =>
      match readString rest with
      | none => .error .malformed
      | some (name, rest) =>
        match skipBlanks rest with
        | ':' :: rest =>
          match readValue limit room (skipBlanks rest) with
          | .error e => .error e
          | .ok (value, rest) =>
            match skipBlanks rest with
            | '}' :: rest => .ok ([(name, value)], rest)
            | ',' :: rest =>
              (readFields limit room (skipBlanks rest)).map
                fun (fields, rest) => ((name, value) :: fields, rest)
            | _ => .error .malformed
        | _ => .error .malformed
    | _ => .error .malformed

end

/-- The value of a document.  An item or field and the value in it take at least one
character together, so twice the length of the document bounds the descent. -/
def parse (document : Text) : Except Fault Value :=
  match readValue (2 * document.length + 2) maxDepth (skipBlanks document) with
  | .error e => .error e
  | .ok (value, rest) => if skipBlanks rest = [] then .ok value else .error .malformed

end Json

end RuleSweep
