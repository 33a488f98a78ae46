/-
# Reading and writing in a character set

The text of bytes and the bytes of a text, in any character set.  Reading also makes a
single newline of a carriage return, alone or before a newline.
-/
import RuleSweep.Charset.Utf8
import RuleSweep.Charset.Utf16
import RuleSweep.Charset.SingleByte

namespace RuleSweep

/-- Why bytes cannot be read as a text. -/
inductive ReadingFault where
  /-- They stand for no text. -/
  | decode (e : DecodeFault)
  /-- They have to begin with a byte-order mark, and do not. -/
  | noMark
  deriving DecidableEq, Repr

/-- What is said of bytes that cannot be read as a text. -/
def ReadingFault.message : ReadingFault → Text
  | .decode e => e.message
  | .noMark => "UTF-16 stream does not start with BOM".toList

namespace Charset

/-- The text of bytes in UTF-16.  They have to begin with a byte-order mark, unless there
are none; without one they are first tried with the low bytes first. -/
def decodeUtf16 (bytes : Bytes) : Except ReadingFault Text :=
  match Utf16.markedOrder? bytes with
  | some order => (Utf16.decodeFrom order 2 (bytes.drop 2)).mapError .decode
  | none =>
    match Utf16.decode .little bytes with
    | .error e => .error (.decode e)
    | .ok [] => .ok []
    | .ok (_ :: _) => .error .noMark

/-- The text of bytes. -/
def decode (charset : Charset) (bytes : Bytes) : Except ReadingFault Text :=
  match charset with
  | .utf8 => (Utf8.decode bytes).mapError .decode
  | .utf8Marked => (Utf8.decodeMarked bytes).mapError .decode
  | .utf16 => decodeUtf16 bytes
  | .utf16Little => (Utf16.decode .little bytes).mapError .decode
  | .utf16Big => (Utf16.decode .big bytes).mapError .decode
  | .latin1 => (ByteTable.latin1.decode bytes).mapError .decode
  | .ascii => (ByteTable.ascii.decode bytes).mapError .decode
  | .windows1252 => (ByteTable.windows1252.decode bytes).mapError .decode

/-- The bytes of a text. -/
def encode (charset : Charset) (t : Text) : Except EncodeFault Bytes :=
  match charset with
  | .utf8 => .ok (Utf8.encode t)
  | .utf8Marked => .ok (Utf8.mark ++ Utf8.encode t)
  | .utf16 => .ok (Utf16.encodeMarked t)
  | .utf16Little => .ok (Utf16.encode .little t)
  | .utf16Big => .ok (Utf16.encode .big t)
  | .latin1 => ByteTable.latin1.encode t
  | .ascii => ByteTable.ascii.encode t
  | .windows1252 => ByteTable.windows1252.encode t

end Charset

namespace Text

/-- The characters `done`, which are given from the last to the first, and then those of
a text with plain newlines; `afterReturn` holds if a carriage return stands right in
front of the text. -/
def plainOnto (done : Text) (afterReturn : Bool) : Text → Text
  | [] => done.reverse
  | c :: rest =>
    if c = '\r' then plainOnto ('\n' :: done) true rest
    else if c = '\n' && afterReturn then plainOnto done false rest
    else plainOnto (c :: done) false rest

/-- Make one newline of a carriage return and the newline behind it, and of a carriage
return alone. -/
def plainNewlines (t : Text) : Text :=
  plainOnto [] false t

end Text

/-- The text of a file's bytes, with plain newlines. -/
def Charset.read (charset : Charset) (bytes : Bytes) : Except ReadingFault Text :=
  (charset.decode bytes).map Text.plainNewlines

end RuleSweep
