/-
# UTF-16

A character takes one or two units of sixteen bits, and a unit two bytes, in one of two
orders.  A byte-order mark at the beginning of a file can tell which.
-/
import RuleSweep.Charset.Reading
import RuleSweep.Text.Units

namespace RuleSweep

namespace Utf16

/-- The order of the two bytes of a unit. -/
inductive ByteOrder where
  /-- The low byte comes first. -/
  | little
  /-- The high byte comes first. -/
  | big
  deriving DecidableEq, Repr

namespace ByteOrder

/-- The name of the character set that has this order. -/
def charsetName : ByteOrder → Text
  | .little => "utf-16-le".toList
  | .big => "utf-16-be".toList

/-- The unit of two bytes. -/
def unit : ByteOrder → UInt8 → UInt8 → Nat
  | .little, a, b => a.toNat + 0x100 * b.toNat
  | .big, a, b => 0x100 * a.toNat + b.toNat

/-- The two bytes of a unit. -/
def bytes : ByteOrder → Nat → Bytes
  | .little, n => [(n % 0x100).toUInt8, (n / 0x100).toUInt8]
  | .big, n => [(n / 0x100).toUInt8, (n % 0x100).toUInt8]

end ByteOrder

/-- The byte-order mark, as a unit. -/
def mark : Nat := 0xFEFF

/-! ## Writing -/

/-- The bytes of a text. -/
def encode (order : ByteOrder) (t : Text) : Bytes :=
  t.flatMap fun c => (Text.units c).flatMap order.bytes

/-- The bytes of a text behind a byte-order mark, low bytes first. -/
def encodeMarked (t : Text) : Bytes :=
  ByteOrder.little.bytes mark ++ encode .little t

/-! ## Reading -/

/-- The fault of the `count` bytes that begin with `byte` at a position. -/
def fault (order : ByteOrder) (byte : UInt8) (position count : Nat) (reason : String) :
    DecodeFault :=
  ⟨order.charsetName, byte, position, position + count, reason.toList⟩

/-- The character that begins with a byte. -/
def next (order : ByteOrder) : NextChar := fun position a rest =>
  match rest with
  | [] => .error (fault order a position 1 "truncated data")
  | b :: rest =>
    let unit := order.unit a b
    if isLowSurrogate unit then .error (fault order a position 2 "illegal encoding")
    else if isHighSurrogate unit then
      match rest with
      | [] => .error (fault order a position 2 "unexpected end of data")
      | [_] => .error (fault order a position 3 "unexpected end of data")
      | c :: d :: _ =>
        if isLowSurrogate (order.unit c d) then
          .ok (Char.ofNat (joinSurrogates unit (order.unit c d)), 3)
        else .error (fault order a position 2 "illegal UTF-16 surrogate")
    else .ok (Char.ofNat unit, 1)

/-- The text of bytes that begin at a position, in a given order. -/
def decodeFrom (order : ByteOrder) (position : Nat) (bytes : Bytes) :
    Except DecodeFault Text :=
  NextChar.decodeFrom (next order) position bytes

/-- The text of bytes in a given order. -/
def decode (order : ByteOrder) (bytes : Bytes) : Except DecodeFault Text :=
  decodeFrom order 0 bytes

/-- The order that a byte-order mark at the beginning of bytes tells. -/
def markedOrder? : Bytes → Option ByteOrder
  | a :: b :: _ =>
    if ByteOrder.little.unit a b = mark then some .little
    else if ByteOrder.big.unit a b = mark then some .big
    else none
  | _ => none

end Utf16

end RuleSweep
