/-
# The characters that are written

Whatever a text holds, its string holds no controls, and if only ASCII is asked for no character
above `~`.  So a string never leaves its line, and the document of an object is made of ASCII
characters alone, even if a string in it has code points that make no text.
-/
import RuleSweep.Proofs.Json.Objects

namespace RuleSweep

/-- A text of ASCII characters. -/
def Text.IsAscii (t : Text) : Prop :=
  ∀ c ∈ t, c.toNat < 0x80

instance (t : Text) : Decidable t.IsAscii :=
  decidable_of_iff (t.all fun c => c.toNat < 0x80) (by simp [Text.IsAscii])

namespace Json

/-! ## Strings -/

/-- A character may be left as it is in a string, unless it is a quote or a backslash: it is no
control below the space, and in ASCII not above `~`. -/
def Repertoire.leaves (repertoire : Repertoire) (c : Char) : Bool :=
  0x20 ≤ c.toNat && (repertoire = .unicode || c.toNat < 0x7F)

/-- All that ASCII leaves is left in any string. -/
theorem Repertoire.leaves_of_ascii {c : Char} (h : Repertoire.ascii.leaves c = true)
    (repertoire : Repertoire) : repertoire.leaves c = true := by
  cases repertoire with
  | unicode =>
    rw [leaves, Bool.and_eq_true] at h
    rw [leaves, h.1]
    rfl
  | ascii => exact h

/-- What ASCII leaves is ASCII. -/
theorem Repertoire.lt_of_leaves_ascii {c : Char} (h : Repertoire.ascii.leaves c = true) :
    c.toNat < 0x80 := by
  simp only [leaves, Bool.and_eq_true, Bool.or_eq_true, decide_eq_true_eq, reduceCtorEq,
    false_or] at h
  omega

/-- Hexadecimal digits are left in every string. -/
theorem leaves_of_mem_hex {width n : Nat} :
    ∀ d ∈ Text.hex width n, Repertoire.ascii.leaves d = true := by
  have hdigits : ∀ k < 16, Repertoire.ascii.leaves (Nat.digitChar k) = true := by decide
  induction width generalizing n with
  | zero => exact List.forall_mem_nil _
  | succ width ih =>
    rw [Text.hex, List.forall_mem_append, List.forall_mem_singleton]
    exact ⟨ih, hdigits _ (Nat.mod_lt n (by decide))⟩

/-- The number of a unit is left in every string. -/
theorem leaves_of_mem_escapeUnit {unit : Nat} :
    ∀ d ∈ escapeUnit unit, Repertoire.ascii.leaves d = true := by
  have hmark : "\\u".toList.all Repertoire.ascii.leaves = true := by decide
  rw [escapeUnit, List.forall_mem_append]
  exact ⟨List.all_eq_true.mp hmark, leaves_of_mem_hex⟩

/-- Whatever is written for a character is left in the string. -/
theorem leaves_of_mem_quotedChar (repertoire : Repertoire) (c : Char) :
    ∀ d ∈ quotedChar repertoire c, repertoire.leaves d = true := by
  have hascii : ∀ {t : Text}, (∀ d ∈ t, Repertoire.ascii.leaves d = true) →
      ∀ d ∈ t, repertoire.leaves d = true :=
    fun h d hd => Repertoire.leaves_of_ascii (h d hd) repertoire
  have hletter : ∀ {t : Text}, t.all Repertoire.ascii.leaves = true →
      ∀ d ∈ t, repertoire.leaves d = true :=
    fun h => hascii (List.all_eq_true.mp h)
  unfold quotedChar
  split
  · exact hletter (by decide)
  split
  · exact hletter (by decide)
  split
  · exact hletter (by decide)
  split
  · exact hletter (by decide)
  split
  · exact hletter (by decide)
  split
  · exact hletter (by decide)
  split
  · exact hletter (by decide)
  split
  · exact hascii leaves_of_mem_escapeUnit
  next hcontrol =>
  split
  · apply hascii
    intro d hd
    obtain ⟨unit, -, hunit⟩ := List.mem_flatMap.mp hd
    exact leaves_of_mem_escapeUnit d hunit
  · next hleft =>
    rw [List.forall_mem_singleton, Repertoire.leaves, Bool.and_eq_true, decide_eq_true_eq]
    refine ⟨Nat.le_of_not_lt hcontrol, ?_⟩
    cases repertoire with
    | unicode => rfl
    | ascii => simpa using hleft

/-- **Whatever a text holds, its string holds only characters that are left in a string.** -/
theorem leaves_of_mem_quoted (repertoire : Repertoire) (t : Text) :
    ∀ d ∈ quoted repertoire t, repertoire.leaves d = true := by
  have hquote : repertoire.leaves '"' = true := Repertoire.leaves_of_ascii (by decide) repertoire
  rw [quoted, List.forall_mem_append, List.forall_mem_cons, List.forall_mem_singleton]
  refine ⟨⟨hquote, ?_⟩, hquote⟩
  intro d hd
  obtain ⟨c, -, hc⟩ := List.mem_flatMap.mp hd
  exact leaves_of_mem_quotedChar repertoire c d hc

/-- A string does not leave its line. -/
theorem newline_notMem_quoted (repertoire : Repertoire) (t : Text) :
    '\n' ∉ quoted repertoire t := by
  intro h
  have hleaves := leaves_of_mem_quoted repertoire t '\n' h
  rw [Repertoire.leaves, Bool.and_eq_true] at hleaves
  exact absurd hleaves.1 (by decide)

/-! ## Values in ASCII -/

/-- The string of a text is written in ASCII. -/
theorem isAscii_quoted (t : Text) : Text.IsAscii (quoted .ascii t) :=
  fun c hc => Repertoire.lt_of_leaves_ascii (leaves_of_mem_quoted .ascii t c hc)

/-- The string of code points is written in ASCII, whether they make a text or not. -/
theorem isAscii_writtenString (codePoints : List Nat) :
    Text.IsAscii (writtenString codePoints) := by
  have hpoint : ∀ n, ∀ d ∈ writtenCodePoint n, Repertoire.ascii.leaves d = true := by
    intro n
    unfold writtenCodePoint
    split
    · exact leaves_of_mem_escapeUnit
    · exact leaves_of_mem_quotedChar .ascii _
  rw [writtenString, Text.IsAscii, List.forall_mem_append, List.forall_mem_cons,
    List.forall_mem_singleton]
  refine ⟨⟨by decide, ?_⟩, by decide⟩
  intro d hd
  obtain ⟨n, -, hn⟩ := List.mem_flatMap.mp hd
  exact Repertoire.lt_of_leaves_ascii (hpoint n d hn)

/-- Truth values are written in ASCII. -/
theorem isAscii_writtenBool (b : Bool) : Text.IsAscii (writtenBool b) := by
  cases b with
  | false => decide
  | true => decide

/-- Whole numbers are written in ASCII. -/
theorem isAscii_signedDecimal (n : Int) : Text.IsAscii (Text.signedDecimal n) := by
  have hdecimal : Text.IsAscii (Text.decimal n.natAbs) := by
    intro d hd
    have hdigit := Text.isDigit_of_mem_decimal _ d hd
    rw [isDigit, Bool.and_eq_true, decide_eq_true_eq, decide_eq_true_eq] at hdigit
    have hle : d.toNat ≤ '9'.toNat := hdigit.2
    exact Nat.lt_of_le_of_lt hle (by decide)
  unfold Text.signedDecimal
  split
  · rw [Text.IsAscii, List.forall_mem_cons]
    exact ⟨by decide, hdecimal⟩
  · exact hdecimal

/-! ## Documents in ASCII -/

/-- A new line is ASCII. -/
theorem isAscii_newLine (depth : Nat) : Text.IsAscii (newLine depth) := by
  rw [newLine, Text.IsAscii, List.forall_mem_cons]
  refine ⟨by decide, ?_⟩
  intro c hc
  rw [List.eq_of_mem_replicate hc]
  decide

/-- **The document of an object is ASCII if the values of its fields are written in ASCII.** -/
theorem isAscii_document_object {fields : Fields}
    (h : ∀ field ∈ fields, Text.IsAscii (field.2.written 1)) :
    Text.IsAscii (Value.object fields.read).document := by
  have hlines : ∀ line ∈ fields.lines 1, Text.IsAscii line := by
    rw [Fields.lines, List.forall_mem_map]
    intro field hfield
    rw [fieldText, Text.IsAscii, List.forall_mem_append, List.forall_mem_append]
    exact ⟨⟨isAscii_quoted field.1, (by decide : Text.IsAscii ": ".toList)⟩, h field hfield⟩
  have hjoined : Text.IsAscii (Text.joinWith (',' :: newLine 1) (fields.lines 1)) := by
    intro c hc
    obtain hmark | ⟨line, hline, hc⟩ := Text.mem_of_mem_joinWith hc
    · rcases List.mem_cons.mp hmark with rfl | hmark
      · decide
      · exact isAscii_newLine 1 c hmark
    · exact hlines line hline c hc
  by_cases hne : fields = []
  · rw [hne]
    decide
  · rw [document_object hne, Text.IsAscii, List.forall_mem_cons, List.forall_mem_append,
      List.forall_mem_append, List.forall_mem_append, List.forall_mem_singleton]
    exact ⟨by decide, isAscii_newLine 1, hjoined, isAscii_newLine 0, by decide⟩

end Json

end RuleSweep
