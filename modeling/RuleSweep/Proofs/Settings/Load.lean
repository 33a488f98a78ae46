/-
# Loading settings twice

Whatever the file of the settings holds, loading mends it at most once: what is loaded is valid,
every field that counts does so by itself, and what was saved while loading is loaded again without
another change.  That need not give the same settings, if they were given a layout without fields
and had to be mended: then nothing of them is saved.
-/
import RuleSweep.Proofs.Charset.Utf8
import RuleSweep.Proofs.Disk
import RuleSweep.Proofs.Settings.Document

namespace RuleSweep

/-- Every format is one of those that are listed. -/
theorem OutputFormat.mem_all (format : OutputFormat) : format ∈ OutputFormat.all := by
  cases format with
  | text => decide
  | html => decide
  | segments => decide

namespace Settings

variable {path : Path} {disk left : Disk} {settings : Settings}

/-! ## What loading does -/

/-- Settings are saved in their own document, or in one without fields if their layout has
none. -/
theorem laidOut_eq_ok {layout : Option Json.Value} {document : Text}
    (h : settings.laidOut layout = .ok document) :
    (layout = none ∧ document = settings.document) ∨
      (layout = some (.object []) ∧ document = (Json.Value.object []).document) := by
  unfold laidOut at h
  split at h
  · exact .inl ⟨rfl, (Except.ok.inj h).symm⟩
  · next fields =>
    split at h
    · next hempty =>
      refine .inr ⟨?_, (Except.ok.inj h).symm⟩
      rw [eq_nil_of_distinctFields hempty]
    · exact absurd h (by simp)
  · exact absurd h (by simp)

/-- Settings that were saved are gone on with, and what was saved is a document for them. -/
theorem saved_eq_ok {layout : Option Json.Value} {result : Settings}
    (h : settings.saved layout path disk = (.ok result, left)) :
    result = settings ∧ ∃ document, settings.laidOut layout = .ok document ∧
      disk.save path (Utf8.encode document) = (.ok (), left) := by
  unfold saved at h
  split at h
  · exact absurd h (by simp)
  · next document hdocument =>
    split at h
    · exact absurd h (by simp)
    · next made hsave =>
      rw [Prod.mk.injEq, Except.ok.injEq] at h
      obtain ⟨rfl, rfl⟩ := h
      exact ⟨rfl, document, hdocument, hsave⟩

/-- When settings cannot be saved, nothing was tried, or it is the disk that refuses. -/
theorem saved_eq_error {layout : Option Json.Value} {e : Fault}
    (h : settings.saved layout path disk = (.error e, left)) :
    left = disk ∨ ∃ content fault, disk.save path content = (.error fault, left) := by
  unfold saved at h
  split at h
  · exact .inl (Prod.mk.inj h).2.symm
  · next document hdocument =>
    split at h
    · next fault made hsave =>
      obtain rfl := (Prod.mk.inj h).2
      exact .inr ⟨_, fault, hsave⟩
    · exact absurd h (by simp)

/-- **What loading can do**: it saves the defaults where there is nothing, goes on with what the
document gives, or saves that if it had to be mended. -/
theorem load_eq_ok (h : load path disk = (.ok settings, left)) :
    (disk.look path = .ok none ∧ settings = default ∧
      disk.save path (Utf8.encode settings.document) = (.ok (), left)) ∨
    ∃ content document given, disk.read path = .ok content ∧
      Utf8.decode content = .ok document ∧ ofDocument document = .ok given ∧
      given.settings = settings ∧
      ((given.mended = false ∧ left = disk) ∨
        (given.mended = true ∧ ∃ written, settings.laidOut given.layout = .ok written ∧
          disk.save path (Utf8.encode written) = (.ok (), left))) := by
  unfold load at h
  split at h
  · exact absurd h (by simp)
  · next hlook =>
    obtain ⟨rfl, document, hdocument, hsave⟩ := saved_eq_ok h
    obtain rfl : default.document = document := Except.ok.inj hdocument
    exact .inl ⟨hlook, rfl, hsave⟩
  · unfold read at h
    split at h
    · exact absurd h (by simp)
    · next content hread =>
      split at h
      · exact absurd h (by simp)
      · next document hdecode =>
        split at h
        · exact absurd h (by simp)
        · next found layout hfound =>
          rw [Prod.mk.injEq, Except.ok.injEq] at h
          exact .inr ⟨content, document, _, hread, hdecode, hfound, h.1,
            .inl ⟨rfl, h.2.symm⟩⟩
        · next found layout hfound =>
          obtain ⟨rfl, hsaved⟩ := saved_eq_ok h
          exact .inr ⟨content, document, _, hread, hdecode, hfound, rfl, .inr ⟨rfl, hsaved⟩⟩

/-- When something that is there cannot be loaded, nothing is changed. -/
theorem load_eq_error {e : Fault} (h : load path disk = (.error e, left))
    (hlook : disk.look path ≠ .ok none) : left = disk := by
  unfold load at h
  split at h
  · exact (Prod.mk.inj h).2.symm
  · next hmissing => exact absurd hmissing hlook
  · unfold read at h
    split at h
    · exact (Prod.mk.inj h).2.symm
    · next content hread =>
      split at h
      · exact (Prod.mk.inj h).2.symm
      · split at h
        · exact (Prod.mk.inj h).2.symm
        · exact absurd h (by simp)
        · obtain rfl | ⟨written, fault, hsave⟩ := saved_eq_error h
          · rfl
          · exact Disk.save_of_read hread hsave

/-! ## Loading again -/

/-- What a document gives without being mended is loaded from a file that holds it, and nothing is
changed. -/
theorem load_of_given {document : Text} {layout : Option Json.Value}
    (hread : disk.read path = .ok (Utf8.encode document))
    (hgiven : ofDocument document = .ok ⟨settings, false, layout⟩) :
    load path disk = (.ok settings, disk) := by
  unfold load
  rw [Disk.look_of_read hread]
  show read path disk = _
  unfold read
  rw [hread]
  simp only [Utf8.decode_encode, hgiven]

/-- Valid settings are loaded from their own document, and nothing is changed. -/
theorem load_of_read (hvalid : IsValid settings) (hshort : IsShort settings)
    (hread : disk.read path = .ok (Utf8.encode settings.document)) :
    load path disk = (.ok settings, disk) :=
  load_of_given hread (ofDocument_document hvalid hshort)

/-- Settings that had to be mended are saved. -/
theorem load_of_mended {content : Bytes} {document : Text} (hread : disk.read path = .ok content)
    (hdecode : Utf8.decode content = .ok document)
    (hmended : ofDocument document = .ok ⟨settings, true, none⟩)
    (hsave : disk.save path (Utf8.encode settings.document) = (.ok (), left)) :
    load path disk = (.ok settings, left) := by
  unfold load
  rw [Disk.look_of_read hread]
  show read path disk = _
  unfold read
  rw [hread]
  simp only [hdecode, hmended, saved, laidOut, hsave]

/-- Loaded settings are valid and short. -/
theorem isValid_of_load (h : load path disk = (.ok settings, left)) :
    IsValid settings ∧ IsShort settings := by
  rcases load_eq_ok h with ⟨-, rfl, -⟩ | ⟨content, document, given, -, -, hgiven, rfl, -⟩
  · exact ⟨isValid_default, isShort_default⟩
  · exact isValid_of_ofDocument hgiven

/-! ## The document -/

/-- The file that a path leads to holds an object with these fields. -/
def HoldsFields (disk : Disk) (path : Path) (fields : Fields) : Prop :=
  ∃ content document, disk.file? path = some content ∧ Utf8.decode content = .ok document ∧
    Json.parse document = .ok (.object fields)

/-- A file holds the fields of one document only. -/
theorem HoldsFields.parse {fields : Fields} (h : HoldsFields disk path fields) {content : Bytes}
    {document : Text} (hread : disk.read path = .ok content)
    (hdecode : Utf8.decode content = .ok document) :
    Json.parse document = .ok (.object fields) := by
  obtain ⟨found, text, hfile, hfound, hparse⟩ := h
  rw [Disk.file?_of_read hread, Option.some.injEq] at hfile
  rw [← hfile, hdecode, Except.ok.injEq] at hfound
  rw [hfound]
  exact hparse

/-- The file that a path leads to holds an object of which these fields count. -/
def HoldsOwn (disk : Disk) (path : Path) (own : Fields) : Prop :=
  ∃ fields, HoldsFields disk path fields ∧ IsOwn fields own

/-- Every field that counts does so by itself. -/
theorem keeps_of_load {fields : Fields} (h : load path disk = (.ok settings, left))
    (hholds : HoldsFields disk path fields) : ∃ own, IsOwn fields own ∧ Keeps own settings := by
  rcases load_eq_ok h with ⟨hlook, -⟩ | ⟨content, document, given, hread, hdecode, hgiven, rfl, -⟩
  · obtain ⟨content, document, hfile, -⟩ := hholds
    simp [Disk.file?, hlook] at hfile
  · have hparse := hholds.parse hread hdecode
    rcases ofDocument_eq_ok hgiven with ⟨found, own, hfound, hown, hkeeps, -⟩ | ⟨hnone, -⟩
    · rw [hparse, Except.ok.injEq, Json.Value.object.injEq] at hfound
      rw [hfound]
      exact ⟨own, hown, hkeeps⟩
    · exact absurd hparse (hnone fields)

/-- What had to be mended is a field that counts and is not valid; the layout is given by one
too. -/
theorem hasInvalid_of_mended {content : Bytes} {document : Text} {given : Given}
    (hread : disk.read path = .ok content) (hdecode : Utf8.decode content = .ok document)
    (hgiven : ofDocument document = .ok given) (hmended : given.mended = true) :
    ∃ own, HoldsOwn disk path own ∧ HasInvalid own ∧
      given.layout = Json.Value.lastField? Reserved.layout.name own := by
  rcases ofDocument_eq_ok hgiven with
    ⟨fields, own, hparse, hown, -, hinvalid, hlayout⟩ | ⟨-, rfl⟩
  · have hholds : HoldsFields disk path fields :=
      ⟨content, document, Disk.file?_of_read hread, hdecode, hparse⟩
    exact ⟨own, ⟨fields, hholds, hown⟩, hinvalid.mp hmended, hlayout⟩
  · exact absurd hmended (by simp)

/-- Something is changed only where there was nothing, or where a field that counts was not
valid. -/
theorem hasInvalid_of_load (h : load path disk = (.ok settings, left)) (hleft : left ≠ disk) :
    disk.look path = .ok none ∨ ∃ own, HoldsOwn disk path own ∧ HasInvalid own := by
  rcases load_eq_ok h with ⟨hlook, -⟩ |
    ⟨content, document, given, hread, hdecode, hgiven, -, ⟨-, hsame⟩ | ⟨hmended, -⟩⟩
  · exact .inl hlook
  · exact absurd hsame hleft
  · obtain ⟨own, hholds, hinvalid, -⟩ := hasInvalid_of_mended hread hdecode hgiven hmended
    exact .inr ⟨own, hholds, hinvalid⟩

/-- **What was loaded is loaded again**, and nothing is changed; only if it had to be mended and has
a layout without fields, the defaults are. -/
theorem load_load (h : load path disk = (.ok settings, left)) :
    ∃ again, load path left = (.ok again, left) ∧
      (again = settings ∨ again = default ∧ ∃ own, HoldsOwn disk path own ∧ HasInvalid own ∧
        IsLast Reserved.layout.name own (.object [])) := by
  obtain ⟨hvalid, hshort⟩ := isValid_of_load h
  rcases load_eq_ok h with ⟨-, -, hsave⟩ |
    ⟨content, document, given, hread, hdecode, hgiven, -, ⟨-, rfl⟩ | ⟨hmended, written, hout, hsave⟩⟩
  · exact ⟨settings, load_of_read hvalid hshort (Disk.read_save hsave), .inl rfl⟩
  · exact ⟨settings, h, .inl rfl⟩
  · rcases laidOut_eq_ok hout with ⟨-, rfl⟩ | ⟨hlayout, rfl⟩
    · exact ⟨settings, load_of_read hvalid hshort (Disk.read_save hsave), .inl rfl⟩
    · obtain ⟨own, hholds, hinvalid, hlast⟩ := hasInvalid_of_mended hread hdecode hgiven hmended
      refine ⟨default, load_of_given (Disk.read_save hsave) ofDocument_empty, .inr ⟨rfl, own, hholds,
        hinvalid, ?_⟩⟩
      rw [← lastField?_eq_some_iff, ← hlast, hlayout]

/-- **Loading is stable.**  Whatever the disk holds: settings that are loaded are valid, and each
is what the last field of its name gives if that is valid, and the default otherwise, among the
fields that count; these are the fields of the document, as long as none of them is for all fields
of the settings.  The disk is changed only if there was nothing or some field that counts was not
valid.  Loading again changes nothing, and gives the same settings unless they had to be mended and
were given a layout without fields.  When something that is there cannot be loaded, nothing is
changed. -/
theorem load_stable (path : Path) (disk : Disk) :
    (∀ settings left, load path disk = (.ok settings, left) →
      (IsValid settings ∧ settings.outputFormat ∈ OutputFormat.all) ∧
      (∀ fields, HoldsFields disk path fields → ∃ own, IsOwn fields own ∧ Keeps own settings) ∧
      (left ≠ disk → disk.look path = .ok none ∨ ∃ own, HoldsOwn disk path own ∧ HasInvalid own) ∧
      ∃ again, load path left = (.ok again, left) ∧
        (again = settings ∨ again = default ∧ ∃ own, HoldsOwn disk path own ∧ HasInvalid own ∧
          IsLast Reserved.layout.name own (.object []))) ∧
    ∀ e left, load path disk = (.error e, left) → disk.look path ≠ .ok none → left = disk := by
  constructor
  · intro settings left h
    refine ⟨⟨(isValid_of_load h).1, OutputFormat.mem_all settings.outputFormat⟩, ?_, ?_, ?_⟩
    · exact fun fields hholds => keeps_of_load h hholds
    · exact hasInvalid_of_load h
    · exact load_load h
  · intro e left h hlook
    exact load_eq_error h hlook

/-- A field that stands twice counts by its last value, and is mended where that is not valid; a
field that no setting has does not count.  A file that is not in UTF-8 is left as it is. -/
theorem load_stable_mended :
    let fields : Json.Fields := [("encoding".toList, .ofText "ascii".toList),
      ("max_source_bytes".toList, .integer 10), ("encoding".toList, .integer 7),
      ("other".toList, .bool true)]
    let disk : Bytes → Disk := fun content => ⟨[], [(["config.json".toList], .file content)]⟩
    let path : Path := ⟨.here, ["config.json".toList]⟩
    let given := disk (Utf8.encode (Json.Value.object fields.read).document)
    let settings : Settings := { maxSourceBytes := 10 }
    let left := disk (Utf8.encode settings.document)
    (load path given = (.ok settings, left) ∧ left ≠ given ∧ HoldsFields given path fields.read ∧
      HasInvalid fields.read ∧ Keeps fields.read settings ∧
      load path left = (.ok settings, left)) ∧
    ∃ e, load path (disk [0xFF]) = (.error e, disk [0xFF]) := by
  intro fields disk path given settings left
  have hread : ∀ content, (disk content).read path = .ok content := by
    intro content
    exact Disk.read_eq_ok_iff.mpr ⟨rfl, ["config.json".toList], rfl, rfl⟩
  have hsave : ∀ content more, (disk content).save path more = (.ok (), disk more) := by
    intro content more
    rfl
  have hparse : Json.parse (Json.Value.object fields.read).document
      = .ok (.object fields.read) := by
    apply Json.parse_document_object
    intro field hfield
    simp only [fields, List.mem_cons, List.not_mem_nil, or_false] at hfield
    rcases hfield with rfl | rfl | rfl | rfl
    · exact Json.writes_ofText 1 "ascii".toList
    · exact Json.writes_integer 1 (by decide)
    · exact Json.writes_integer 1 (by decide)
    · exact Json.writes_bool 1 true
  have hholds : HoldsFields given path fields.read :=
    ⟨_, _, Disk.file?_of_read (hread _), Utf8.decode_encode _, hparse⟩
  let own : Json.Fields :=
    [("encoding".toList, .integer 7), ("max_source_bytes".toList, .integer 10)]
  have hgiven : ownFields fields.read = .ok own.read := rfl
  have hcheck : (Draft.ofFields own.read).check = .ok (settings, true) := rfl
  have hmended : ofDocument (Json.Value.object fields.read).document = .ok ⟨settings, true, none⟩ :=
    ofDocument_of_parse hparse hgiven hcheck
  have hload : load path given = (.ok settings, left) :=
    load_of_mended (hread _) (Utf8.decode_encode _) hmended (hsave _ _)
  have hleft : left ≠ given := by
    intro heq
    have hcontent := congrArg (fun disk => disk.read path) heq
    rw [hread, hread, Except.ok.injEq] at hcontent
    have hdocument := congrArg Utf8.decode hcontent
    rw [Utf8.decode_encode, Utf8.decode_encode, Except.ok.injEq] at hdocument
    exact document_ne_of_mended hmended rfl hdocument
  obtain ⟨hloaded, -⟩ := load_stable path given
  obtain ⟨-, hkeeps, hchanged, -⟩ := hloaded settings left hload
  have hall : ∀ {own}, IsOwn fields.read own → own = fields.read := by
    intro own hown
    apply hown.eq_self
    decide
  have hinvalid : HasInvalid fields.read := by
    rcases hchanged hleft with hlook | ⟨own, ⟨found, hfound, hown⟩, hinvalid⟩
    · rw [Disk.look_of_read (hread _)] at hlook
      exact absurd hlook (by simp)
    · have hsame := hfound.parse (hread _) (Utf8.decode_encode _)
      rw [hparse, Except.ok.injEq, Json.Value.object.injEq] at hsame
      rw [← hsame] at hown
      rwa [hall hown] at hinvalid
  obtain ⟨own, hown, hkept⟩ := hkeeps fields.read hholds
  rw [hall hown] at hkept
  have hagain : load path left = (.ok settings, left) :=
    load_of_read (isValid_of_load hload).1 (isValid_of_load hload).2 (hread _)
  refine ⟨⟨hload, hleft, hholds, hinvalid, hkept, hagain⟩, ?_⟩
  obtain ⟨e, broken, hbroken⟩ : ∃ e broken, load path (disk [0xFF]) = (.error e, broken) := by
    refine ⟨.decode (Utf8.badStart 0xFF 0), disk [0xFF], ?_⟩
    unfold load
    rw [Disk.look_of_read (hread _)]
    rfl
  have hsame : broken = disk [0xFF] := by
    apply (load_stable path (disk [0xFF])).2 e broken hbroken
    rw [Disk.look_of_read (hread _)]
    simp
  rw [hsame] at hbroken
  exact ⟨e, hbroken⟩

/-- An encoding is loaded from a document that gives it, but not if a field for all fields of the
settings stands behind it and holds none.  And a layout without fields leaves nothing to be saved, so
that settings which had to be mended are lost: the defaults are loaded the second time. -/
theorem load_reserved_fields :
    let disk : Text → Disk :=
      fun document => ⟨[], [(["config.json".toList], .file (Utf8.encode document))]⟩
    let path : Path := ⟨.here, ["config.json".toList]⟩
    let plain := "\x7b\"encoding\": \"cp1252\"\x7d".toList
    let emptied := "\x7b\"encoding\": \"cp1252\", \"__dict__\": \x7b\x7d\x7d".toList
    let laid := "\x7b\"__dataclass_fields__\": \x7b\x7d, \"max_source_bytes\": -1, ".toList
      ++ "\"encoding\": \"latin-1\"\x7d".toList
    let left := disk "\x7b\x7d".toList
    load path (disk plain) = (.ok { encoding := "cp1252".toList }, disk plain) ∧
      load path (disk emptied) = (.ok default, disk emptied) ∧
      load path (disk laid) = (.ok { encoding := "latin-1".toList }, left) ∧
      load path left = (.ok default, left) := by
  decide +kernel

end Settings

end RuleSweep
