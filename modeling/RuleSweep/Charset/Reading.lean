/-
# Reading bytes character by character

In every character set a text is read from the left, one character after the other.  A
character set only has to say which character begins with a given byte, and how many of
the bytes behind it belong to that character.
-/
import RuleSweep.Charset

namespace RuleSweep

/-- What a character set says of a byte, given its position and the bytes behind it: the
character that begins with it, and how many of the bytes behind it belong to that
character. -/
abbrev NextChar := (position : Nat) → UInt8 → Bytes → Except DecodeFault (Char × Nat)

namespace NextChar

/-- The characters `done`, which are given from the last to the first, and then those of
the bytes behind the next `skip` bytes. -/
def decodeOnto (next : NextChar) :
    (skip position : Nat) → (done : Text) → Bytes → Except DecodeFault Text
  | _, _, done, [] => .ok done.reverse
  | skip + 1, position, done, _ :: rest => decodeOnto next skip (position + 1) done rest
  | 0, position, done, b :: rest =>
    match next position b rest with
    | .error e => .error e
    | .ok (c, more) => decodeOnto next more (position + 1) (c :: done) rest

/-- The text of bytes that begin at a position. -/
def decodeFrom (next : NextChar) (position : Nat) (bytes : Bytes) :
    Except DecodeFault Text :=
  decodeOnto next 0 position [] bytes

/-- The text of bytes. -/
def decode (next : NextChar) (bytes : Bytes) : Except DecodeFault Text :=
  decodeFrom next 0 bytes

end NextChar

end RuleSweep
