/-
# What was read from a file

A text is had from a file exactly if the file is there, is not too large, has the name of a text
file if that is asked for, and stands for the text in the encoding of the given name
(`read_eq_ok_iff`).  So a text that holds no carriage return is had back from a file that was
written in the same encoding: `read_of_encode`.
-/
import RuleSweep.InputFile
import RuleSweep.Proofs.Charset.Coding
import RuleSweep.Proofs.Disk

namespace RuleSweep

namespace InputFile

variable {disk : Disk} {path : Path} {demands : Demands} {encoding text : Text}
  {content : Bytes}

/-- Bytes stand for a text in the encoding of a name that is the name of a character set. -/
theorem decode_eq_ok_iff :
    decode path encoding content = .ok text ↔
      '\x00' ∉ encoding ∧ ∃ charset, Encoding.ofName? encoding = some (.charset charset) ∧
        charset.read content = .ok text := by
  rw [decode]
  by_cases hzero : '\x00' ∈ encoding
  · rw [if_pos (List.contains_iff_mem.mpr hzero)]
    simp [hzero]
  · rw [if_neg (by rwa [List.contains_iff_mem])]
    cases hname : Encoding.ofName? encoding with
    | none => simp
    | some found =>
      cases found with
      | transform => simp
      | charset charset =>
        cases hread : charset.read content with
        | ok found => simp [hzero, hread]
        | error e => cases e <;> simp [hread]

/-- A content that meets the demands is read. -/
theorem readContent_eq_ok_iff :
    readContent path demands content = .ok text ↔
      content.length ≤ demands.limit ∧ (demands.textName = true → isTextName path.name = true) ∧
        decode path demands.encoding content = .ok text := by
  rw [readContent]
  by_cases hlimit : demands.limit < content.length
  · rw [if_pos hlimit]
    have hlarge : ¬ (content.length : Int) ≤ demands.limit := Int.not_le.mpr hlimit
    cases Size.tooLarge? content.length demands.limit <;> simp [hlarge]
  · rw [if_neg hlimit]
    by_cases hname : demands.textName = true ∧ isTextName path.name = false
    · simp [hname]
    · rw [if_neg (by simpa using hname)]
      simp only [not_and, Bool.not_eq_false] at hname
      exact ⟨fun h => ⟨Int.not_lt.mp hlimit, hname, h⟩, fun h => h.2.2⟩

/-- **A text is read** exactly from a file that is there and meets the demands. -/
theorem read_eq_ok_iff :
    read disk path demands = .ok text ↔
      ∃ content, disk.look path = .ok (some (.file content)) ∧
        readContent path demands content = .ok text := by
  rw [read]
  cases hlook : disk.look path with
  | error e => simp
  | ok there =>
    cases there with
    | none => simp
    | some node => cases node <;> simp

/-- The name of an encoding in which a text was read holds no zero character and stands for a
character set; and the text, which that can write, holds no carriage return. -/
theorem of_read (h : read disk path demands = .ok text) :
    '\x00' ∉ demands.encoding ∧
      ∃ charset, Encoding.ofName? demands.encoding = some (.charset charset) ∧
        '\r' ∉ text ∧ ∀ c ∈ text, charset.covers c = true := by
  obtain ⟨content, -, hcontent⟩ := read_eq_ok_iff.mp h
  obtain ⟨-, -, hdecode⟩ := readContent_eq_ok_iff.mp hcontent
  obtain ⟨hzero, charset, hname, hread⟩ := decode_eq_ok_iff.mp hdecode
  exact ⟨hzero, charset, hname, Charset.of_read hread⟩

/-- **A text without carriage returns is had back from a file that holds its bytes.** -/
theorem read_of_encode {charset : Charset} (hfile : disk.read path = .ok content)
    (hzero : '\x00' ∉ demands.encoding)
    (hname : Encoding.ofName? demands.encoding = some (.charset charset))
    (htext : '\r' ∉ text) (hencode : charset.encode text = .ok content)
    (hlimit : content.length ≤ demands.limit)
    (htextName : demands.textName = true → isTextName path.name = true) :
    read disk path demands = .ok text := by
  rw [read_eq_ok_iff]
  refine ⟨content, Disk.look_of_read hfile, ?_⟩
  rw [readContent_eq_ok_iff, decode_eq_ok_iff]
  exact ⟨hlimit, htextName, hzero, charset, hname, Charset.read_of_encode htext hencode⟩

end InputFile

end RuleSweep
