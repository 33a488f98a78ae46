/-
# Character sets

The character sets in which a file can be written, the names by which they are known,
and what is said when bytes stand for no text or a text has no bytes.
-/
import RuleSweep.Text.Quoted

namespace RuleSweep

/-- The content of a file. -/
abbrev Bytes := List UInt8

/-- A character set. -/
inductive Charset where
  /-- UTF-8. -/
  | utf8
  /-- UTF-8 behind a byte-order mark. -/
  | utf8Marked
  /-- UTF-16 behind a byte-order mark that tells the order. -/
  | utf16
  /-- UTF-16 with the low byte first. -/
  | utf16Little
  /-- UTF-16 with the high byte first. -/
  | utf16Big
  /-- The first 256 code points, a byte each. -/
  | latin1
  /-- The first 128 code points, a byte each. -/
  | ascii
  /-- The Western European code page of Windows. -/
  | windows1252
  deriving DecidableEq, Repr

/-- What the name of an encoding can stand for. -/
inductive Encoding where
  /-- A character set. -/
  | charset (charset : Charset)
  /-- A way to write bytes or text differently, which makes no text of a file. -/
  | transform
  deriving DecidableEq, Repr

namespace Encoding

/-- A character that counts in the name of an encoding. -/
def isNameChar (c : Char) : Bool :=
  c.isAlphanum || c = '.'

/-- The name of an encoding in small letters, with one underscore in the place of every
run of characters that do not count, and none at its ends. -/
def plainName (name : Text) : Text :=
  let spaced := name.map fun c => if isNameChar c then c.toLower else ' '
  Text.joinWith ['_'] ((Text.cutEvery ' ' spaced).filter (!·.isEmpty))

/-- The names of the encodings, as `plainName` gives them. -/
def names : List (List String × Encoding) :=
  [(["utf_8", "u8", "utf", "utf8", "utf8_ucs2", "utf8_ucs4", "cp65001"], .charset .utf8),
   (["utf_8_sig"], .charset .utf8Marked),
   (["utf_16", "u16", "utf16"], .charset .utf16),
   (["utf_16_le", "utf_16le", "unicodelittleunmarked"], .charset .utf16Little),
   (["utf_16_be", "utf_16be", "unicodebigunmarked"], .charset .utf16Big),
   (["latin_1", "8859", "cp819", "csisolatin1", "ibm819", "iso8859", "iso8859_1",
     "iso_8859_1", "iso_8859_1_1987", "iso_ir_100", "l1", "latin", "latin1"],
    .charset .latin1),
   (["ascii", "646", "ansi_x3_4_1968", "ansi_x3.4_1986", "cp367", "csascii", "ibm367",
     "iso646_us", "iso_646.irv_1991", "iso_ir_6", "us", "us_ascii"], .charset .ascii),
   (["cp1252", "1252", "windows_1252"], .charset .windows1252),
   (["rot_13", "rot13", "base64_codec", "base64", "base_64", "hex_codec", "hex",
     "bz2_codec", "bz2", "zlib_codec", "zip", "zlib", "uu_codec", "uu", "quopri_codec",
     "quopri", "quoted_printable", "quotedprintable"], .transform)]

/-- The encoding that has a plain name. -/
def ofPlainName? (name : Text) : Option Encoding :=
  (names.find? fun entry => entry.1.any (·.toList = name)).map Prod.snd

/-- The encoding of a name, if it is known.  A dot in a name may stand for an
underscore, except in `utf.8` and the like, where the underscore is needed. -/
def ofName? (name : Text) : Option Encoding :=
  let plain := plainName name
  match ofPlainName? plain with
  | some encoding => some encoding
  | none =>
    let dotless := plain.map fun c => if c = '.' then '_' else c
    if mainNames.any (·.toList = dotless) then none else ofPlainName? dotless
where
  /-- The names in which a dot cannot stand for an underscore. -/
  mainNames : List String :=
    ["utf_8", "utf_8_sig", "utf_16", "utf_16_le", "utf_16_be", "latin_1", "rot_13",
     "base64_codec", "hex_codec", "bz2_codec", "zlib_codec", "uu_codec", "quopri_codec"]

end Encoding

/-! ## Faults -/

/-- Bytes that stand for no text. -/
structure DecodeFault where
  /-- The name of the character set. -/
  charset : Text
  /-- The first byte that stands for nothing. -/
  byte : UInt8
  /-- The position of that byte. -/
  start : Nat
  /-- The position behind the last byte that is at fault. -/
  stop : Nat
  /-- What is wrong. -/
  reason : Text
  deriving DecidableEq, Repr

/-- What is said of bytes that stand for no text. -/
def DecodeFault.message (e : DecodeFault) : Text :=
  '\x27' :: e.charset ++ "\x27 codec can\x27t decode byte".toList
    ++ (if e.stop = e.start + 1 then
          " 0x".toList ++ Text.hex 2 e.byte.toNat ++ " in position ".toList
            ++ Text.decimal e.start
        else
          "s in position ".toList ++ Text.decimal e.start ++ '-' :: Text.decimal (e.stop - 1))
    ++ ": ".toList ++ e.reason

/-- Characters that have no bytes; they are given by their numbers, since a surrogate is
no character but may be asked for. -/
structure EncodeFault where
  /-- The name of the character set. -/
  charset : Text
  /-- The number of the first of them. -/
  codePoint : Nat
  /-- The position of the first of them. -/
  start : Nat
  /-- The position behind the last of them. -/
  stop : Nat
  /-- What is wrong. -/
  reason : Text
  deriving DecidableEq, Repr

/-- What is said of characters that have no bytes. -/
def EncodeFault.message (e : EncodeFault) : Text :=
  '\x27' :: e.charset ++ "\x27 codec can\x27t encode character".toList
    ++ (if e.stop = e.start + 1 then
          " \x27".toList ++ Text.numberedEscape e.codePoint ++ "\x27 in position ".toList
            ++ Text.decimal e.start
        else
          "s in position ".toList ++ Text.decimal e.start ++ '-' :: Text.decimal (e.stop - 1))
    ++ ": ".toList ++ e.reason

end RuleSweep
