/-
# UTF-8

A character takes one to four bytes.  Of bytes that stand for no text, the fault names
the longest beginning of a character, or the one byte that begins none.
-/
import RuleSweep.Charset.Reading

namespace RuleSweep

namespace Utf8

/-! ## Writing -/

/-- The bytes of a character. -/
def encodeChar (c : Char) : Bytes :=
  let n := c.toNat
  if n < 0x80 then [n.toUInt8]
  else if n < 0x800 then [(0xC0 + n / 0x40).toUInt8, (0x80 + n % 0x40).toUInt8]
  else if n < 0x10000 then
    [(0xE0 + n / 0x1000).toUInt8, (0x80 + n / 0x40 % 0x40).toUInt8,
      (0x80 + n % 0x40).toUInt8]
  else
    [(0xF0 + n / 0x40000).toUInt8, (0x80 + n / 0x1000 % 0x40).toUInt8,
      (0x80 + n / 0x40 % 0x40).toUInt8, (0x80 + n % 0x40).toUInt8]

/-- The bytes of a text. -/
def encode (t : Text) : Bytes :=
  t.flatMap encodeChar

/-! ## Reading -/

/-- A byte that continues a character. -/
def isTail (b : UInt8) : Bool :=
  0x80 ≤ b && b ≤ 0xBF

/-- The second byte of a character of three bytes, given the first. -/
def isSecondOfThree (first second : UInt8) : Bool :=
  isTail second && (first != 0xE0 || 0xA0 ≤ second) && (first != 0xED || second < 0xA0)

/-- The second byte of a character of four bytes, given the first. -/
def isSecondOfFour (first second : UInt8) : Bool :=
  isTail second && (first != 0xF0 || 0x90 ≤ second) && (first != 0xF4 || second < 0x90)

/-- The six bits that a byte adds to the code point of the bytes before it. -/
def joinTail (n : Nat) (b : UInt8) : Nat :=
  n * 0x40 + (b.toNat - 0x80)

/-- The fault of the `count` bytes that begin with `byte` at a position. -/
def fault (byte : UInt8) (position count : Nat) (reason : String) : DecodeFault :=
  ⟨"utf-8".toList, byte, position, position + count, reason.toList⟩

/-- No character begins with this byte. -/
def badStart (byte : UInt8) (position : Nat) : DecodeFault :=
  fault byte position 1 "invalid start byte"

/-- The next byte continues no character. -/
def badTail (byte : UInt8) (position count : Nat) : DecodeFault :=
  fault byte position count "invalid continuation byte"

/-- The bytes end within a character. -/
def cutShort (byte : UInt8) (position count : Nat) : DecodeFault :=
  fault byte position count "unexpected end of data"

/-- The character that begins with a byte. -/
def next : NextChar := fun position a rest =>
  if a < 0x80 then .ok (Char.ofNat a.toNat, 0)
  else if a < 0xC2 || 0xF4 < a then .error (badStart a position)
  else if a < 0xE0 then
    match rest with
    | [] => .error (cutShort a position 1)
    | b :: _ =>
      if isTail b then .ok (Char.ofNat (joinTail (a.toNat - 0xC0) b), 1)
      else .error (badTail a position 1)
  else if a < 0xF0 then
    match rest with
    | [] => .error (cutShort a position 1)
    | [b] =>
      if isSecondOfThree a b then .error (cutShort a position 2)
      else .error (badTail a position 1)
    | b :: c :: _ =>
      if !isSecondOfThree a b then .error (badTail a position 1)
      else if isTail c then
        .ok (Char.ofNat (joinTail (joinTail (a.toNat - 0xE0) b) c), 2)
      else .error (badTail a position 2)
  else
    match rest with
    | [] => .error (cutShort a position 1)
    | [b] =>
      if isSecondOfFour a b then .error (cutShort a position 2)
      else .error (badTail a position 1)
    | [b, c] =>
      if !isSecondOfFour a b then .error (badTail a position 1)
      else if isTail c then .error (cutShort a position 3)
      else .error (badTail a position 2)
    | b :: c :: d :: _ =>
      if !isSecondOfFour a b then .error (badTail a position 1)
      else if !isTail c then .error (badTail a position 2)
      else if isTail d then
        .ok (Char.ofNat (joinTail (joinTail (joinTail (a.toNat - 0xF0) b) c) d), 3)
      else .error (badTail a position 3)

/-- The text of bytes. -/
def decode (bytes : Bytes) : Except DecodeFault Text :=
  NextChar.decode next bytes

/-! ## The byte-order mark -/

/-- The byte-order mark. -/
def mark : Bytes := [0xEF, 0xBB, 0xBF]

/-- The text of bytes behind a byte-order mark, which may be missing.  Nothing but a
beginning of the mark stands for the empty text, and positions are counted from behind
the mark. -/
def decodeMarked (bytes : Bytes) : Except DecodeFault Text :=
  if bytes.length < mark.length && bytes.isPrefixOf mark then .ok []
  else if mark.isPrefixOf bytes then decode (bytes.drop mark.length)
  else decode bytes

end Utf8

end RuleSweep
