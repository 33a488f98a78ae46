/-
# Settings and their document

Valid settings, whose sizes have no more digits than are read, are what their own document gives,
and nothing in it has to be mended.  What any document gives is valid and has such sizes.
-/
import RuleSweep.Proofs.Settings.Own

namespace RuleSweep

namespace Settings

/-- Settings that need no mending. -/
structure IsValid (settings : Settings) : Prop where
  /-- A source may hold something. -/
  maxSourceBytes : 0 < settings.maxSourceBytes
  /-- A rule list may hold something. -/
  maxRulesBytes : 0 < settings.maxRulesBytes
  /-- The encoding is known. -/
  encoding : IsKnown settings.encoding

/-- The sizes are written with no more digits than are read. -/
structure IsShort (settings : Settings) : Prop where
  /-- The greatest size of a source. -/
  maxSourceBytes : (Text.decimal settings.maxSourceBytes.natAbs).length ≤ maxNumeralDigits
  /-- The greatest size of a rule list. -/
  maxRulesBytes : (Text.decimal settings.maxRulesBytes.natAbs).length ≤ maxNumeralDigits

/-- The settings that hold when none are given are valid. -/
theorem isValid_default : IsValid default where
  maxSourceBytes := by decide
  maxRulesBytes := by decide
  encoding := isKnown_default

/-- The sizes that hold when none are given are short. -/
theorem isShort_default : IsShort default where
  maxSourceBytes := by decide
  maxRulesBytes := by decide

/-! ## What a document gives -/

/-- A setting comes from some field or is the default. -/
theorem KeepsField.of_field {α : Type} {means : Json.Value → α → Prop} {default setting : α}
    {name : Text} {fields : Fields} (h : KeepsField means default name fields setting) :
    (∃ field ∈ fields, means field.2 setting) ∨ setting = default := by
  rcases h with ⟨value, ⟨earlier, later, rfl, -⟩, hmeans⟩ | ⟨-, hdefault⟩
  · exact .inl ⟨_, List.mem_append_right earlier List.mem_cons_self, hmeans⟩
  · exact .inr hdefault

variable {fields : Fields} {settings : Settings}

/-- What a document gives is valid. -/
theorem isValid_of_keeps (h : Keeps fields settings) : IsValid settings where
  maxSourceBytes := by
    rcases h.maxSourceBytes.of_field with ⟨field, -, hsize⟩ | hdefault
    · exact hsize.2
    · rw [hdefault]
      exact isValid_default.maxSourceBytes
  maxRulesBytes := by
    rcases h.maxRulesBytes.of_field with ⟨field, -, hsize⟩ | hdefault
    · exact hsize.2
    · rw [hdefault]
      exact isValid_default.maxRulesBytes
  encoding := by
    rcases h.encoding.of_field with ⟨field, -, hname⟩ | hdefault
    · exact hname.2
    · rw [hdefault]
      exact isKnown_default

/-- A size among short values is short. -/
theorem length_decimal_of_isSize {value : Json.Value} {n : Int} (hshort : Json.IsShort value)
    (h : IsSize value n) : (Text.decimal n.natAbs).length ≤ maxNumeralDigits := by
  rw [h.1] at hshort
  exact hshort

/-- What a document gives has sizes as short as those of the document. -/
theorem isShort_of_keeps (hshort : ∀ field ∈ fields, Json.IsShort field.2)
    (h : Keeps fields settings) : IsShort settings where
  maxSourceBytes := by
    rcases h.maxSourceBytes.of_field with ⟨field, hfield, hsize⟩ | hdefault
    · exact length_decimal_of_isSize (hshort field hfield) hsize
    · rw [hdefault]
      exact isShort_default.maxSourceBytes
  maxRulesBytes := by
    rcases h.maxRulesBytes.of_field with ⟨field, hfield, hsize⟩ | hdefault
    · exact length_decimal_of_isSize (hshort field hfield) hsize
    · rw [hdefault]
      exact isShort_default.maxRulesBytes

/-- What is said of a document that was read: if it is an object, the settings are what the
fields give that count, and otherwise they are the defaults and need no mending. -/
theorem ofDocument_eq_ok {document : Text} {given : Given} (h : ofDocument document = .ok given) :
    (∃ fields own, Json.parse document = .ok (.object fields) ∧ IsOwn fields own ∧
      Keeps own given.settings ∧ (given.mended = true ↔ HasInvalid own) ∧
      given.layout = Json.Value.lastField? Reserved.layout.name own) ∨
    ((∀ fields, Json.parse document ≠ .ok (.object fields)) ∧ given = ⟨default, false, none⟩) := by
  unfold ofDocument at h
  split at h
  · exact absurd h (by simp)
  · exact absurd h (by simp)
  · next fields hparse =>
    obtain ⟨found, hfound, hchecked⟩ := exists_of_bind_eq_ok h
    obtain ⟨⟨settings, mended⟩, hcheck, hgiven⟩ := exists_of_bind_eq_ok hchecked
    obtain ⟨own, hown, hsame⟩ := exists_isOwn hfound
    obtain ⟨hkeeps, hmended⟩ := keeps_of_check hcheck
    obtain rfl : ⟨settings, mended, Json.Value.lastField? Reserved.layout.name found⟩ = given :=
      Except.ok.inj hgiven
    exact .inl ⟨fields, own, hparse, hown, hkeeps.congr hsame,
      hmended.trans (hasInvalid_congr hsame), hsame _ (.inr rfl)⟩
  · next hnumeral hdeep hobject =>
    exact .inr ⟨fun fields hparse => hobject fields hparse, (Except.ok.inj h).symm⟩

/-- Settings that a document gives are valid and short. -/
theorem isValid_of_ofDocument {document : Text} {given : Given}
    (h : ofDocument document = .ok given) : IsValid given.settings ∧ IsShort given.settings := by
  rcases ofDocument_eq_ok h with ⟨fields, own, hparse, hown, hkeeps, -⟩ | ⟨-, rfl⟩
  · exact ⟨isValid_of_keeps hkeeps,
      isShort_of_keeps (hown.isShort (Json.isShort_of_parse hparse)) hkeeps⟩
  · exact ⟨isValid_default, isShort_default⟩

/-! ## The document of settings -/

/-- A known name is the name of the encoding that it gives. -/
theorem encoding?_ofText {name : Text} (h : IsKnown name) :
    encoding? (.ofText name) = .ok (some name) := by
  obtain ⟨encoding, hencoding⟩ := h.known
  have hblank : name.trim.isEmpty = false := by
    rw [List.isEmpty_eq_false_iff]
    exact h.notBlank
  have hzero : name.contains '\x00' = false := by
    rw [List.contains_eq_mem, decide_eq_false_iff_not]
    exact h.noZero
  rw [Json.Value.ofText, encoding?, textOf_map]
  simp only [hblank, hzero, hencoding]
  rfl

/-- The fields of a document of short settings are read back. -/
theorem areRead_draft (h : IsShort settings) : Json.Fields.AreRead 1 settings.draft.fields := by
  intro field hfield
  simp only [Draft.fields, draft, List.mem_cons, List.not_mem_nil, or_false] at hfield
  rcases hfield with rfl | rfl | rfl | rfl | rfl
  · exact Json.writes_integer 1 h.maxSourceBytes
  · exact Json.writes_integer 1 h.maxRulesBytes
  · exact Json.writes_ofText 1 settings.outputFormat.name
  · exact Json.writes_ofText 1 settings.encoding
  · exact Json.writes_bool 1 settings.checkExtensions

/-- The fields of a draft are all given, and give the draft. -/
theorem ownFields_fields (draft : Draft) :
    ownFields (Json.Fields.read draft.fields) = .ok (Json.Fields.read draft.fields) ∧
      Draft.ofFields (Json.Fields.read draft.fields) = draft := by
  exact ⟨rfl, rfl⟩

/-- Valid settings pass their own check. -/
theorem check_draft (h : IsValid settings) : settings.draft.check = .ok (settings, false) := by
  have hsource : size? settings.draft.maxSourceBytes = some settings.maxSourceBytes :=
    size?_eq_some_iff.mpr ⟨rfl, h.maxSourceBytes⟩
  have hrules : size? settings.draft.maxRulesBytes = some settings.maxRulesBytes :=
    size?_eq_some_iff.mpr ⟨rfl, h.maxRulesBytes⟩
  have hformat : format? settings.draft.outputFormat = some settings.outputFormat :=
    format?_eq_some_iff.mpr rfl
  have hname : encoding? settings.draft.encoding = .ok (some settings.encoding) :=
    encoding?_ofText h.encoding
  have hcheck : truth? settings.draft.checkExtensions = some settings.checkExtensions :=
    truth?_eq_some_iff.mpr rfl
  unfold Draft.check
  rw [hsource, hrules, hformat, hname, hcheck]
  rfl

/-- What an object gives whose fields are all given. -/
theorem ofDocument_of_parse {document : Text} {fields own : Fields} {mended : Bool}
    (hparse : Json.parse document = .ok (.object fields)) (hown : ownFields fields = .ok own)
    (hcheck : (Draft.ofFields own).check = .ok (settings, mended)) :
    ofDocument document
      = .ok ⟨settings, mended, Json.Value.lastField? Reserved.layout.name own⟩ := by
  unfold ofDocument
  rw [hparse]
  show ownFields fields >>= _ = _
  rw [hown]
  show (Draft.ofFields own).check >>= _ = _
  rw [hcheck]
  rfl

/-- **Valid settings are read back from their own document, and need no mending.** -/
theorem ofDocument_document (hvalid : IsValid settings) (hshort : IsShort settings) :
    ofDocument settings.document = .ok ⟨settings, false, none⟩ := by
  have hparse : Json.parse settings.document
      = .ok (.object (Json.Fields.read settings.draft.fields)) :=
    Json.parse_document_object (areRead_draft hshort)
  obtain ⟨hown, hdraft⟩ := ownFields_fields settings.draft
  have hcheck : (Draft.ofFields (Json.Fields.read settings.draft.fields)).check
      = .ok (settings, false) := by
    rw [hdraft, check_draft hvalid]
  exact ofDocument_of_parse hparse hown hcheck

/-- The document without any fields gives the defaults. -/
theorem ofDocument_empty :
    ofDocument (Json.Value.object []).document = .ok ⟨default, false, none⟩ := by
  have hparse : Json.parse (Json.Value.object []).document = .ok (.object []) := rfl
  have hown : ownFields [] = .ok [] := rfl
  exact ofDocument_of_parse hparse hown (check_draft isValid_default)

/-- Settings that had to be mended are not those of the document. -/
theorem document_ne_of_mended {document : Text} {given : Given}
    (h : ofDocument document = .ok given) (hmended : given.mended = true) :
    given.settings.document ≠ document := by
  rintro rfl
  obtain ⟨hvalid, hshort⟩ := isValid_of_ofDocument h
  rw [ofDocument_document hvalid hshort, Except.ok.injEq] at h
  rw [← h] at hmended
  exact absurd hmended (by simp)

end Settings

end RuleSweep
