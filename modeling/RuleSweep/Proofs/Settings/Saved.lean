/-
# Saved settings

Valid settings are saved wherever a file can be saved, and loading gives them back and leaves the
file as it is.  Their document is ASCII: it would be even if the name of the encoding held code
points that make no text.
-/
import RuleSweep.Proofs.Json.Characters
import RuleSweep.Proofs.Settings.Load

namespace RuleSweep

namespace Settings

/-! ## ASCII -/

/-- A text of ASCII characters has ASCII bytes. -/
theorem lt_of_mem_encode {t : Text} (h : t.IsAscii) : ∀ b ∈ Utf8.encode t, b < 0x80 := by
  intro b hb
  obtain ⟨c, hc, hbyte⟩ := List.mem_flatMap.mp hb
  have hlt := h c hc
  rw [Utf8.encodeChar, if_pos hlt, List.mem_singleton] at hbyte
  rw [hbyte, UInt8.lt_iff_toNat_lt, Utf8.toNat_toUInt8 (by omega)]
  exact hlt

/-- The fields of settings, with some code points in the place of the name of the encoding. -/
def named (settings : Settings) (codePoints : List Nat) : Draft :=
  { settings.draft with encoding := .string codePoints }

/-- The fields of settings are those with the code points of their own encoding's name. -/
theorem named_encoding (settings : Settings) :
    settings.named (settings.encoding.map Char.toNat) = settings.draft := rfl

/-- The document of settings is ASCII, whatever the code points of the encoding's name are. -/
theorem isAscii_document (settings : Settings) (codePoints : List Nat) :
    (settings.named codePoints).document.IsAscii := by
  apply Json.isAscii_document_object
  intro field hfield
  simp only [Draft.fields, named, draft, List.mem_cons, List.not_mem_nil, or_false] at hfield
  rcases hfield with rfl | rfl | rfl | rfl | rfl
  · exact Json.isAscii_signedDecimal settings.maxSourceBytes
  · exact Json.isAscii_signedDecimal settings.maxRulesBytes
  · exact Json.isAscii_writtenString (settings.outputFormat.name.map Char.toNat)
  · exact Json.isAscii_writtenString codePoints
  · exact Json.isAscii_writtenBool settings.checkExtensions

/-! ## Saving -/

variable {settings : Settings} {path : Path} {disk made : Disk} {other : Bytes}

/-- Where anything can be saved, every draft can be, and then its document is there. -/
theorem Draft.exists_save (draft : Draft) (htakes : disk.save path other = (.ok (), made)) :
    ∃ left, draft.save path disk = (.ok (), left) ∧
      left.read path = .ok (Utf8.encode draft.document) := by
  obtain ⟨left, hleft⟩ := Disk.save_of_save htakes (Utf8.encode draft.document)
  refine ⟨left, ?_, Disk.read_save hleft⟩
  unfold Draft.save
  rw [hleft]

/-- **Valid settings are loaded as they were saved.**  Where anything can be saved, valid settings
whose sizes have no more digits than are read can be; loading them gives the same settings and
changes nothing; and the bytes that are saved are ASCII, whatever code points the name of the
encoding holds. -/
theorem load_save (hvalid : IsValid settings) (hshort : IsShort settings)
    (htakes : disk.save path other = (.ok (), made)) :
    (∃ left, settings.save path disk = (.ok (), left) ∧
      left.read path = .ok (Utf8.encode settings.document) ∧
      load path left = (.ok settings, left)) ∧
    (∀ b ∈ Utf8.encode settings.document, b < 0x80) ∧
    ∀ codePoints, ∃ left content, (settings.named codePoints).save path disk = (.ok (), left) ∧
      left.read path = .ok content ∧ ∀ b ∈ content, b < 0x80 := by
  refine ⟨?_, ?_, ?_⟩
  · obtain ⟨left, hsave, hread⟩ := settings.draft.exists_save htakes
    exact ⟨left, hsave, hread, load_of_read hvalid hshort hread⟩
  · have hascii := isAscii_document settings (settings.encoding.map Char.toNat)
    rw [named_encoding] at hascii
    exact lt_of_mem_encode hascii
  · intro codePoints
    obtain ⟨left, hsave, hread⟩ := (settings.named codePoints).exists_save htakes
    exact ⟨left, _, hsave, hread, lt_of_mem_encode (isAscii_document settings codePoints)⟩

/-- A size of forty digits and a name of the encoding with a tab, a quote and a character that is
written as two units come back from a file in a folder that is made for it.  A lone surrogate is
written in ASCII too. -/
theorem load_save_two_units :
    let settings : Settings :=
      { maxSourceBytes := 1000000000000000000000000000000000000000, maxRulesBytes := 1,
        outputFormat := .segments, encoding := "\tutf😀8\"".toList, checkExtensions := false }
    let path : Path := ⟨.here, ["conf".toList, "config.json".toList]⟩
    let disk : Disk := ⟨[], []⟩
    (∃ left, settings.save path disk = (.ok (), left) ∧
      left.read path = .ok (Utf8.encode settings.document) ∧
      load path left = (.ok settings, left)) ∧
    "\\tutf\\ud83d\\ude008\\\"".toList <:+: settings.document ∧
    ∃ left content, (settings.named [0xD800]).save path disk = (.ok (), left) ∧
      left.read path = .ok content ∧ ∀ b ∈ content, b < 0x80 := by
  intro settings path disk
  have hvalid : IsValid settings :=
    ⟨by decide, by decide, ⟨by decide, by decide, .charset .utf8, by decide⟩⟩
  have hshort : IsShort settings := ⟨by decide, by decide⟩
  have htakes : disk.save path [] = (.ok (), ⟨[], [(["conf".toList], .folder),
      (["conf".toList, "config.json".toList], .file [])]⟩) := by decide +kernel
  obtain ⟨hsaved, -, hascii⟩ := load_save hvalid hshort htakes
  exact ⟨hsaved, by decide +kernel, hascii [0xD800]⟩

end Settings

end RuleSweep
