/-
# Settings

The settings of the program, their JSON document, and the file that holds it.  A field
of the document that is missing or not valid has its default.

Settings are given every field of the document that has a name which they know.  Besides
the names of the settings these are some that are reserved: a field with such a name does
more than set a value, so that other fields may count for nothing, and the settings may
not be read, or not be saved.
-/
import RuleSweep.InputFile
import RuleSweep.Json.Layout
import RuleSweep.Output
import RuleSweep.Text.Blank

namespace RuleSweep

/-- The settings of the program. -/
structure Settings where
  /-- The greatest size of a source in bytes. -/
  maxSourceBytes : Int := 512 * 1024
  /-- The greatest size of a rule list in bytes. -/
  maxRulesBytes : Int := 50 * 1024
  /-- The format of the output, unless another one is asked for. -/
  outputFormat : OutputFormat := .text
  /-- The name of the encoding of all files. -/
  encoding : Text := "utf-8".toList
  /-- Input files have to have the names of text files. -/
  checkExtensions : Bool := true
  deriving DecidableEq, Repr

namespace Settings

/-- The settings that hold when none are given. -/
def default : Settings := {}

/-- The fields of an object as they are read. -/
abbrev Fields := List (List Nat × Json.Value)

/-! ## The document -/

/-- What stands in the fields of a document of settings, which need not be valid. -/
structure Draft where
  /-- The greatest size of a source. -/
  maxSourceBytes : Json.Value
  /-- The greatest size of a rule list. -/
  maxRulesBytes : Json.Value
  /-- The format of the output. -/
  outputFormat : Json.Value
  /-- The encoding. -/
  encoding : Json.Value
  /-- Whether input files have to have the names of text files. -/
  checkExtensions : Json.Value
  deriving Repr

/-- What stands in the fields of the document of settings. -/
def draft (settings : Settings) : Draft where
  maxSourceBytes := .integer settings.maxSourceBytes
  maxRulesBytes := .integer settings.maxRulesBytes
  outputFormat := .ofText settings.outputFormat.name
  encoding := .ofText settings.encoding
  checkExtensions := .bool settings.checkExtensions

namespace Draft

/-- The names and the values of the fields, in their order. -/
def fields (draft : Draft) : List (Text × Json.Value) :=
  [("max_source_bytes".toList, draft.maxSourceBytes),
   ("max_rules_bytes".toList, draft.maxRulesBytes),
   ("output_format".toList, draft.outputFormat),
   ("encoding".toList, draft.encoding),
   ("check_extensions".toList, draft.checkExtensions)]

/-- The fields as an object. -/
def object (draft : Draft) : Json.Value :=
  .object (draft.fields.map fun field => (field.1.map Char.toNat, field.2))

/-- The document with these fields. -/
def document (draft : Draft) : Text :=
  draft.object.document

/-- The draft that fields give; a field that is missing has its default. -/
def ofFields (fields : Fields) : Draft :=
  let base := default.draft
  let value := fun (name : String) (missing : Json.Value) =>
    (Json.Value.lastField? name.toList fields).getD missing
  { maxSourceBytes := value "max_source_bytes" base.maxSourceBytes
    maxRulesBytes := value "max_rules_bytes" base.maxRulesBytes
    outputFormat := value "output_format" base.outputFormat
    encoding := value "encoding" base.encoding
    checkExtensions := value "check_extensions" base.checkExtensions }

end Draft

/-- The document of settings. -/
def document (settings : Settings) : Text :=
  settings.draft.document

/-! ## Reading a document -/

/-- Why settings cannot be read. -/
inductive Fault where
  /-- The file cannot be read or written. -/
  | disk (e : DiskFault)
  /-- The file is not in UTF-8. -/
  | decode (e : DecodeFault)
  /-- A whole number of the document has too many digits. -/
  | numeral (e : NumeralTooLong)
  /-- A container of the document lies too deep. -/
  | tooDeep (e : Json.TooDeep)
  /-- The name of the encoding holds surrogates, which have no bytes. -/
  | surrogates (e : EncodeFault)
  /-- The name of the encoding holds a zero character. -/
  | zeroInName
  /-- A reserved field would make the settings something else. -/
  | otherClass (kind : Text)
  /-- A reserved field for all fields of the settings holds no fields. -/
  | noDictionary (kind : Text)
  /-- A reserved field cannot be set. -/
  | notWritable
  /-- A reserved field for the layout of the settings holds none: something that it would
  have to have is missing. -/
  | noMember (kind member : Text)
  deriving DecidableEq, Repr

/-- What is said when settings cannot be read. -/
def Fault.message : Fault → Text
  | .disk e => e.message
  | .decode e => e.message
  | .numeral e => e.message
  | .tooDeep e => e.message
  | .surrogates e => e.message
  | .zeroInName => InputFile.zeroMessage
  | .otherClass kind =>
    "__class__ must be set to a class, not \x27".toList ++ kind ++ "\x27 object".toList
  | .noDictionary kind =>
    "__dict__ must be set to a dictionary, not a \x27".toList ++ kind ++ "\x27".toList
  | .notWritable =>
    "attribute \x27__weakref__\x27 of \x27AppConfig\x27 objects is not writable".toList
  | .noMember kind member =>
    "\x27".toList ++ kind ++ "\x27 object has no attribute \x27".toList ++ member ++ "\x27".toList

/-- The text of code points; the first run of surrogates is a fault. -/
def textOf (codePoints : List Nat) : Except EncodeFault Text :=
  match codePoints.span (!isSurrogate ·) with
  | (plain, []) => .ok (plain.map Char.ofNat)
  | (plain, n :: rest) =>
    .error ⟨"utf-8".toList, n, plain.length,
      plain.length + 1 + (rest.takeWhile isSurrogate).length,
      "surrogates not allowed".toList⟩

/-- The size that a value gives, if it is valid. -/
def size? : Json.Value → Option Int
  | .integer n => if 0 < n then some n else none
  | _ => none

/-- The format that a value gives, if it is valid. -/
def format? : Json.Value → Option OutputFormat
  | .string codePoints =>
    OutputFormat.all.find? fun format => format.name.map Char.toNat = codePoints
  | _ => none

/-- The truth value that a value gives, if it is valid. -/
def truth? : Json.Value → Option Bool
  | .bool value => some value
  | _ => none

/-- The name of an encoding that a value gives, if it is valid. -/
def encoding? : Json.Value → Except Fault (Option Text)
  | .string codePoints =>
    match textOf codePoints with
    | .error e => .error (.surrogates e)
    | .ok name =>
      if name.trim.isEmpty then .ok none
      else if name.contains '\x00' then .error .zeroInName
      else .ok ((Encoding.ofName? name).map fun _ => name)
  | _ => .ok none

/-- A setting, and whether it had to be mended. -/
abbrev Checked (α : Type) := α × Bool

/-- The setting that a value gives if it is valid, and otherwise the default, which mends
it. -/
def checked {α : Type} (default : α) : Option α → Checked α
  | some setting => (setting, false)
  | none => (default, true)

/-- The settings that a draft gives. -/
def Draft.check (draft : Draft) : Except Fault (Checked Settings) :=
  let source := checked default.maxSourceBytes (size? draft.maxSourceBytes)
  let rules := checked default.maxRulesBytes (size? draft.maxRulesBytes)
  let format := checked default.outputFormat (format? draft.outputFormat)
  let check := checked default.checkExtensions (truth? draft.checkExtensions)
  (encoding? draft.encoding).map fun name =>
    let encoding := checked default.encoding name
    (⟨source.1, rules.1, format.1, encoding.1, check.1⟩,
      source.2 || rules.2 || format.2 || encoding.2 || check.2)

/-! ## The fields that the settings are given -/

/-- The name of the kind of a value, as it stands in messages. -/
def kindName : Json.Value → Text
  | .null => "NoneType".toList
  | .bool _ => "bool".toList
  | .integer _ => "int".toList
  | .real _ => "float".toList
  | .string _ => "str".toList
  | .array _ => "list".toList
  | .object _ => "dict".toList

/-- The names that settings know although they are none of a setting, as far as a field
with such a name makes a difference. -/
inductive Reserved where
  /-- All fields of the settings. -/
  | fields
  /-- What the settings are. -/
  | kind
  /-- The references to the settings that do not keep them. -/
  | references
  /-- The layout of the document that the settings are saved in. -/
  | layout
  deriving DecidableEq, Repr

namespace Reserved

/-- A reserved name. -/
def name : Reserved → Text
  | .fields => "__dict__".toList
  | .kind => "__class__".toList
  | .references => "__weakref__".toList
  | .layout => "__dataclass_fields__".toList

/-- All reserved names. -/
def all : List Reserved :=
  [.fields, .kind, .references, .layout]

/-- The reserved name that consists of the given code points. -/
def ofCodePoints? (codePoints : List Nat) : Option Reserved :=
  all.find? fun reserved => codePoints = reserved.name.map Char.toNat

end Reserved

/-- The names of the settings. -/
def names : List Text :=
  default.draft.fields.map Prod.fst

/-- Give settings one more field, after the fields `own` that they have been given so far.
Of several fields with the same name the last one counts. -/
def assign (own : Fields) (field : List Nat × Json.Value) : Except Fault Fields :=
  match Reserved.ofCodePoints? field.1 with
  | some .fields =>
    match field.2 with
    | .object fields => .ok fields
    | value => .error (.noDictionary (kindName value))
  | some .kind => .error (.otherClass (kindName field.2))
  | some .references => .error .notWritable
  | some .layout => .ok (own ++ [field])
  | none =>
    if names.any fun name => field.1 = name.map Char.toNat then .ok (own ++ [field])
    else .ok own

/-- The fields that settings have when they have been given all fields of a document. -/
def ownFields (fields : Fields) : Except Fault Fields :=
  (Json.Value.distinctFields fields).foldlM assign []

/-- What a document gives. -/
structure Given where
  /-- The settings. -/
  settings : Settings
  /-- Some field had to be mended. -/
  mended : Bool
  /-- The layout that the settings were given, if any. -/
  layout : Option Json.Value

/-- What a document gives.  One that cannot be read, or is no object, gives the defaults
and is left as it is. -/
def ofDocument (document : Text) : Except Fault Given :=
  match Json.parse document with
  | .error (.numeral e) => .error (.numeral e)
  | .error (.tooDeep e) => .error (.tooDeep e)
  | .ok (.object fields) => do
    let own ← ownFields fields
    let (settings, mended) ← (Draft.ofFields own).check
    return ⟨settings, mended, Json.Value.lastField? Reserved.layout.name own⟩
  | _ => .ok ⟨default, false, none⟩

/-! ## The file -/

/-- Write the document with the fields of a draft into the file that a path leads to. -/
def Draft.save (draft : Draft) (path : Path) (disk : Disk) : Except Fault Unit × Disk :=
  match disk.save path (Utf8.encode draft.document) with
  | (.error e, disk) => (.error (.disk e), disk)
  | (.ok (), disk) => (.ok (), disk)

/-- Write the document of settings into the file that a path leads to. -/
def save (settings : Settings) (path : Path) (disk : Disk) : Except Fault Unit × Disk :=
  settings.draft.save path disk

/-- The document that settings are saved in.  If they were given a layout, it has to list
fields, and each of them would have to say what it is, which no value does: only a layout
without fields can be followed. -/
def laidOut (settings : Settings) : (layout : Option Json.Value) → Except Fault Text
  | none => .ok settings.document
  | some (.object fields) =>
    match Json.Value.distinctFields fields with
    | [] => .ok (Json.Value.object []).document
    | (_, value) :: _ => .error (.noMember (kindName value) "_field_type".toList)
  | some layout => .error (.noMember (kindName layout) "values".toList)

/-- Save settings by a layout and go on with them. -/
def saved (settings : Settings) (layout : Option Json.Value) (path : Path) (disk : Disk) :
    Except Fault Settings × Disk :=
  match settings.laidOut layout with
  | .error e => (.error e, disk)
  | .ok document =>
    match disk.save path (Utf8.encode document) with
    | (.error e, disk) => (.error (.disk e), disk)
    | (.ok (), disk) => (.ok settings, disk)

/-- The settings in the file that a path leads to, at which there is something.  If a
field had to be mended, the mended settings are saved. -/
def read (path : Path) (disk : Disk) : Except Fault Settings × Disk :=
  match disk.read path with
  | .error e => (.error (.disk e), disk)
  | .ok content =>
    match Utf8.decode content with
    | .error e => (.error (.decode e), disk)
    | .ok document =>
      match ofDocument document with
      | .error e => (.error e, disk)
      | .ok ⟨settings, false, _⟩ => (.ok settings, disk)
      | .ok ⟨settings, true, layout⟩ => settings.saved layout path disk

/-- The settings in the file that a path leads to.  If there is nothing, the defaults are
saved there. -/
def load (path : Path) (disk : Disk) : Except Fault Settings × Disk :=
  match disk.look path with
  | .error e => (.error (.disk e), disk)
  | .ok none => default.saved none path disk
  | .ok (some _) => read path disk

end Settings

end RuleSweep
