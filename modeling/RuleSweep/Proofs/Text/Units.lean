/-
# The units of a character

No character is a surrogate.  So a character of one unit cannot be taken for half of a pair, and
a character of two units is one pair, which is joined to its code point again.
-/
import RuleSweep.Text.Units

namespace RuleSweep

/-- The high surrogates by their numbers. -/
theorem isHighSurrogate_iff {unit : Nat} :
    isHighSurrogate unit = true ↔ 0xD800 ≤ unit ∧ unit ≤ 0xDBFF := by
  rw [isHighSurrogate, Bool.and_eq_true, decide_eq_true_eq, decide_eq_true_eq]

/-- The low surrogates by their numbers. -/
theorem isLowSurrogate_iff {unit : Nat} :
    isLowSurrogate unit = true ↔ 0xDC00 ≤ unit ∧ unit ≤ 0xDFFF := by
  rw [isLowSurrogate, Bool.and_eq_true, decide_eq_true_eq, decide_eq_true_eq]

/-- A unit that begins a pair ends none. -/
theorem isLowSurrogate_of_isHighSurrogate {unit : Nat} (h : isHighSurrogate unit = true) :
    isLowSurrogate unit = false := by
  rw [isHighSurrogate_iff] at h
  rw [Bool.eq_false_iff, Ne, isLowSurrogate_iff]
  omega

/-- No character is half of a pair. -/
theorem isSurrogate_toNat (c : Char) : isSurrogate c.toNat = false := by
  have hvalid : c.toNat < 0xD800 ∨ 0xDFFF < c.toNat ∧ c.toNat < 0x110000 := c.valid
  rw [isSurrogate, Bool.or_eq_false_iff, Bool.eq_false_iff, Bool.eq_false_iff, Ne, Ne,
    isHighSurrogate_iff, isLowSurrogate_iff]
  omega

/-- No character begins a pair. -/
theorem isHighSurrogate_toNat (c : Char) : isHighSurrogate c.toNat = false :=
  (Bool.or_eq_false_iff.mp (isSurrogate_toNat c)).1

/-- No character ends a pair. -/
theorem isLowSurrogate_toNat (c : Char) : isLowSurrogate c.toNat = false :=
  (Bool.or_eq_false_iff.mp (isSurrogate_toNat c)).2

namespace Text

/-- **The units of a character** are its number, or a pair that is joined to its number. -/
theorem units_cases (c : Char) :
    (c.toNat < 0x10000 ∧ units c = [c.toNat]) ∨
    ∃ high low, units c = [high, low] ∧ isHighSurrogate high = true ∧
      isLowSurrogate low = true ∧ joinSurrogates high low = c.toNat := by
  have hvalid : c.toNat < 0xD800 ∨ 0xDFFF < c.toNat ∧ c.toNat < 0x110000 := c.valid
  rw [units]
  by_cases hone : c.toNat < 0x10000
  · exact Or.inl ⟨hone, if_pos hone⟩
  · refine Or.inr ⟨_, _, if_neg hone, ?_, ?_, ?_⟩
    · rw [isHighSurrogate_iff]
      omega
    · rw [isLowSurrogate_iff]
      omega
    · unfold joinSurrogates
      omega

/-- The units of a character are numbers of sixteen bits. -/
theorem lt_of_mem_units {c : Char} {unit : Nat} (h : unit ∈ units c) : unit < 0x10000 := by
  obtain ⟨hone, hunits⟩ | ⟨high, low, hunits, hhigh, hlow, -⟩ := units_cases c
  · rw [hunits, List.mem_singleton] at h
    omega
  · rw [isHighSurrogate_iff] at hhigh
    rw [isLowSurrogate_iff] at hlow
    rw [hunits, List.mem_cons, List.mem_singleton] at h
    omega

end Text

end RuleSweep
