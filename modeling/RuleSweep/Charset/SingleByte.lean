/-
# Character sets of single bytes

In these character sets every character is one byte.  Each is given by the character of
every byte and the byte of every character, as far as there is one.
-/
import RuleSweep.Charset.Reading

namespace RuleSweep

/-- A character set of single bytes. -/
structure ByteTable where
  /-- The name by which faults call it. -/
  name : Text
  /-- What is wrong with a byte or a character that has no counterpart. -/
  reason : Text
  /-- The character of a byte. -/
  char? : UInt8 → Option Char
  /-- The byte of a character. -/
  byte? : Char → Option UInt8

namespace ByteTable

/-- The first `size` code points, a byte each. -/
def identity (name reason : String) (size : Nat) : ByteTable where
  name := name.toList
  reason := reason.toList
  char? b := if b.toNat < size then some (Char.ofNat b.toNat) else none
  byte? c := if c.toNat < size then some c.toNat.toUInt8 else none

/-- The first 128 code points. -/
def ascii : ByteTable :=
  identity "ascii" "ordinal not in range(128)" 128

/-- The first 256 code points. -/
def latin1 : ByteTable :=
  identity "latin-1" "ordinal not in range(256)" 256

/-- The bytes from `80` to `9F` that have a character in the Western European code page
of Windows, with the code points of these characters. -/
def windowsPairs : List (Nat × Nat) :=
  [(0x80, 0x20AC), (0x82, 0x201A), (0x83, 0x0192), (0x84, 0x201E), (0x85, 0x2026),
   (0x86, 0x2020), (0x87, 0x2021), (0x88, 0x02C6), (0x89, 0x2030), (0x8A, 0x0160),
   (0x8B, 0x2039), (0x8C, 0x0152), (0x8E, 0x017D), (0x91, 0x2018), (0x92, 0x2019),
   (0x93, 0x201C), (0x94, 0x201D), (0x95, 0x2022), (0x96, 0x2013), (0x97, 0x2014),
   (0x98, 0x02DC), (0x99, 0x2122), (0x9A, 0x0161), (0x9B, 0x203A), (0x9C, 0x0153),
   (0x9E, 0x017E), (0x9F, 0x0178)]

/-- The code points of the Western European code page of Windows: those below 256, but
other characters in the place of the controls from `80` to `9F`. -/
def windows1252 : ByteTable where
  name := "charmap".toList
  reason := "character maps to <undefined>".toList
  char? b :=
    if b.toNat < 0x80 || 0xA0 ≤ b.toNat then some (Char.ofNat b.toNat)
    else (windowsPairs.find? (·.1 = b.toNat)).map fun pair => Char.ofNat pair.2
  byte? c :=
    if c.toNat < 0x80 || 0xA0 ≤ c.toNat && c.toNat < 0x100 then some c.toNat.toUInt8
    else (windowsPairs.find? (·.2 = c.toNat)).map fun pair => pair.1.toUInt8

/-- The character of a byte. -/
def next (table : ByteTable) : NextChar := fun position b _ =>
  match table.char? b with
  | none => .error ⟨table.name, b, position, position + 1, table.reason⟩
  | some c => .ok (c, 0)

/-- The text of bytes. -/
def decode (table : ByteTable) (bytes : Bytes) : Except DecodeFault Text :=
  NextChar.decode table.next bytes

/-- A character has a byte. -/
def covers (table : ByteTable) (c : Char) : Bool :=
  (table.byte? c).isSome

/-- The bytes of a text; a fault names the whole first run of characters that have
none. -/
def encode (table : ByteTable) (t : Text) : Except EncodeFault Bytes :=
  match t.span table.covers with
  | (_, []) => .ok (t.filterMap table.byte?)
  | (covered, c :: rest) =>
    .error ⟨table.name, c.toNat, covered.length,
      covered.length + 1 + (rest.takeWhile (!table.covers ·)).length, table.reason⟩

end ByteTable

end RuleSweep
