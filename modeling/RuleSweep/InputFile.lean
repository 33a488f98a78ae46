/-
# Input files

Reading a text from a file: the file has to be there, must not be too large, has to have
the name of a text file if that is asked for, and must stand for a text in its encoding.
The demands are checked in this order.
-/
import RuleSweep.Charset.Coding
import RuleSweep.Disk
import RuleSweep.InputFile.Size
import RuleSweep.Journal.Entry

namespace RuleSweep

namespace InputFile

/-! ## Names of text files -/

/-- The endings of the names of text files. -/
def textEndings : List String :=
  [".txt", ".md", ".markdown", ".js", ".jsx", ".ts", ".tsx", ".json", ".html", ".htm",
   ".css", ".scss", ".less", ".xml", ".svg", ".log", ".csv", ".yml", ".yaml", ".ini",
   ".conf", ".sh", ".bat", ".ps1"]

/-- The small form of a character as far as it matters for an ending.  The small letters
of the endings are ASCII, and besides the ASCII capitals only the Kelvin sign has such a
letter as its small form. -/
def smallChar (c : Char) : Char :=
  if c = '\u212a' then 'k' else c.toLower

/-- The name is that of a text file. -/
def isTextName (name : Text) : Bool :=
  textEndings.any fun ending => ending.toList.isSuffixOf (name.map smallChar)

/-! ## Faults -/

/-- Why an input file is refused. -/
inductive Refusal where
  /-- There is no such file. -/
  | notFound (path : Path)
  /-- It is larger than the limit. -/
  | tooLarge (size limit : Int)
  /-- It has not the name of a text file. -/
  | notText (name : Text)
  /-- Its bytes stand for no text. -/
  | undecodable (path : Path) (e : DecodeFault)
  /-- Its encoding is not known. -/
  | unknownEncoding (path : Path) (name : Text)
  /-- Its encoding is no character set. -/
  | transform (path : Path) (name : Text)
  deriving DecidableEq, Repr

namespace Refusal

/-- What is said of a file that cannot be read. -/
def unreadable (path : Path) (reason : Text) : Text :=
  "Could not read ".toList ++ path.text ++ ": ".toList ++ reason

/-- What is said of a file that is refused. -/
def message : Refusal → Text
  | .notFound path => "File not found: ".toList ++ path.text
  | .tooLarge size limit => (Size.tooLarge? size limit).getD []
  | .notText name =>
    "Unsupported file type: ".toList ++ name ++ ". Please use a text file.".toList
  | .undecodable path e => unreadable path e.message
  | .unknownEncoding path name => unreadable path ("unknown encoding: ".toList ++ name)
  | .transform path name =>
    unreadable path ('\x27' :: name ++ "\x27 is not a text encoding; ".toList
      ++ "use codecs.open() to handle arbitrary codecs".toList)

end Refusal

/-- Why a text cannot be had from a file. -/
inductive Fault where
  /-- The file is refused. -/
  | refused (e : Refusal)
  /-- The bytes have to begin with a byte-order mark. -/
  | noMark
  /-- The file is too large, and one of the sizes cannot be shown. -/
  | sizeOverflow
  /-- The name of the encoding holds a zero character. -/
  | zeroInName
  /-- The disk cannot be asked for the file. -/
  | disk (e : DiskFault)
  deriving DecidableEq, Repr

/-- What is said of the name of an encoding that holds a zero character. -/
def zeroMessage : Text :=
  "embedded null character".toList

/-- What is said when a text cannot be had from a file. -/
def Fault.message : Fault → Text
  | .refused e => e.message
  | .noMark => ReadingFault.noMark.message
  | .sizeOverflow => Size.overflowMessage
  | .zeroInName => zeroMessage
  | .disk e => e.message

/-! ## Reading -/

/-- The demands on an input file. -/
structure Demands where
  /-- The greatest size in bytes. -/
  limit : Int
  /-- The name of the encoding. -/
  encoding : Text
  /-- The file has to have the name of a text file. -/
  textName : Bool
  deriving DecidableEq, Repr

/-- The text of a file's bytes in the encoding of a given name. -/
def decode (path : Path) (encoding : Text) (content : Bytes) : Except Fault Text :=
  if encoding.contains '\x00' then .error .zeroInName
  else
    match Encoding.ofName? encoding with
    | none => .error (.refused (.unknownEncoding path encoding))
    | some .transform => .error (.refused (.transform path encoding))
    | some (.charset charset) =>
      match charset.read content with
      | .ok text => .ok text
      | .error (.decode e) => .error (.refused (.undecodable path e))
      | .error .noMark => .error .noMark

/-- The text of a file of the given content, to which a path leads. -/
def readContent (path : Path) (demands : Demands) (content : Bytes) : Except Fault Text :=
  if demands.limit < content.length then
    match Size.tooLarge? content.length demands.limit with
    | none => .error .sizeOverflow
    | some _ => .error (.refused (.tooLarge content.length demands.limit))
  else if demands.textName && !isTextName path.name then .error (.refused (.notText path.name))
  else decode path demands.encoding content

/-- The text of the file that a path leads to. -/
def read (disk : Disk) (path : Path) (demands : Demands) : Except Fault Text :=
  match disk.look path with
  | .error e => .error (.disk e)
  | .ok (some (.file content)) => readContent path demands content
  | .ok _ => .error (.refused (.notFound path))

/-- The entry for a text that was read from a file. -/
def entry (path : Path) (text : Text) : Entry :=
  ⟨.info, "tms.input_files".toList,
    "Loaded input file. path=".toList ++ path.text ++ " chars=".toList
      ++ Text.decimal text.length⟩

end InputFile

end RuleSweep
