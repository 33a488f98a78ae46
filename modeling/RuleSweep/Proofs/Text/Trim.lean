/-
# Trimming

What is trimmed of a text is a part of it, and it has no blanks at its ends
(`isBlank_head?_trim`, `isBlank_getLast?_trim`).  So a text is its own trimmed form exactly if it
has none there, and blanks that are put around such a text are trimmed again:
`trim_append_append`.
-/
import Mathlib.Data.List.Infix
import RuleSweep.Text.Blank

namespace RuleSweep

namespace Text

/-! ## What trimming leaves -/

/-- Trimming on the left leaves an end of the text. -/
theorem trimLeft_isSuffix (t : Text) : t.trimLeft <:+ t :=
  List.dropWhile_suffix isBlank

/-- Trimming on the right leaves a beginning of the text. -/
theorem trimRight_isPrefix (t : Text) : t.trimRight <+: t := by
  rw [trimRight, ← List.reverse_suffix, List.reverse_reverse]
  exact List.dropWhile_suffix isBlank

/-- Trimming leaves a part of the text. -/
theorem trim_isInfix (t : Text) : t.trim <:+: t :=
  (trimRight_isPrefix t.trimLeft).isInfix.trans (trimLeft_isSuffix t).isInfix

/-- Trimming adds no character. -/
theorem mem_of_mem_trim {c : Char} {t : Text} (h : c ∈ t.trim) : c ∈ t :=
  (trim_isInfix t).subset h

/-- A trimmed text begins with no blank. -/
theorem isBlank_head?_trim (t : Text) : ∀ c ∈ t.trim.head?, isBlank c = false := by
  intro c hc
  -- the right end was trimmed last, which does not change how the text begins
  obtain ⟨behind, hbehind⟩ := trimRight_isPrefix t.trimLeft
  have hleft : c ∈ t.trimLeft.head? := by
    rw [← hbehind]
    exact List.mem_head?_append_of_mem_head? hc
  have hhead := List.head?_dropWhile_not isBlank t
  rw [show t.dropWhile isBlank = t.trimLeft from rfl, hleft] at hhead
  simpa using hhead

/-- A trimmed text ends in no blank. -/
theorem isBlank_getLast?_trim (t : Text) : ∀ c ∈ t.trim.getLast?, isBlank c = false := by
  intro c hc
  rw [trim, trimRight, List.getLast?_reverse] at hc
  have hhead := List.head?_dropWhile_not isBlank t.trimLeft.reverse
  rw [hc] at hhead
  simpa using hhead

/-! ## Texts without blanks around them -/

/-- Blanks in front of a text that begins with none are trimmed. -/
theorem trimLeft_append {lead t : Text} (hlead : ∀ c ∈ lead, isBlank c = true)
    (hfirst : ∀ c ∈ t.head?, isBlank c = false) : trimLeft (lead ++ t) = t := by
  rw [trimLeft, List.dropWhile_append_of_pos hlead]
  cases t with
  | nil => rfl
  | cons c rest => exact List.dropWhile_cons_of_neg (by simp [hfirst c rfl])

/-- Blanks behind a text that ends in none are trimmed. -/
theorem trimRight_append {t behind : Text} (hbehind : ∀ c ∈ behind, isBlank c = true)
    (hlast : ∀ c ∈ t.getLast?, isBlank c = false) : trimRight (t ++ behind) = t := by
  have hlead : ∀ c ∈ behind.reverse, isBlank c = true := by simpa using hbehind
  have hfirst : ∀ c ∈ t.reverse.head?, isBlank c = false := by simpa using hlast
  have hreverse := trimLeft_append hlead hfirst
  rw [trimLeft] at hreverse
  rw [trimRight, List.reverse_append, hreverse, List.reverse_reverse]

/-- Blanks on both sides of a text that has none at its ends are trimmed. -/
theorem trim_append_append {lead t behind : Text} (hlead : ∀ c ∈ lead, isBlank c = true)
    (hne : t ≠ []) (hfirst : ∀ c ∈ t.head?, isBlank c = false)
    (hlast : ∀ c ∈ t.getLast?, isBlank c = false) (hbehind : ∀ c ∈ behind, isBlank c = true) :
    trim (lead ++ t ++ behind) = t := by
  have hfirst' : ∀ c ∈ (t ++ behind).head?, isBlank c = false := by
    rwa [List.head?_append_of_ne_nil t hne]
  rw [trim, List.append_assoc, trimLeft_append hlead hfirst', trimRight_append hbehind hlast]

/-- A text that neither begins nor ends with a blank has no blanks around it. -/
theorem trim_eq_self {t : Text} (hfirst : ∀ c ∈ t.head?, isBlank c = false)
    (hlast : ∀ c ∈ t.getLast?, isBlank c = false) : t.trim = t := by
  have hnil : ∀ c ∈ ([] : Text), isBlank c = true := by simp
  have hleft := trimLeft_append hnil hfirst
  have hright := trimRight_append hnil hlast
  rw [List.nil_append] at hleft
  rw [List.append_nil] at hright
  rw [trim, hleft, hright]

/-- Trimming a second time changes nothing. -/
theorem trim_trim (t : Text) : t.trim.trim = t.trim :=
  trim_eq_self (isBlank_head?_trim t) (isBlank_getLast?_trim t)

/-- A text that is its own trimmed form begins with no blank. -/
theorem isBlank_head?_of_trim {t : Text} (h : t.trim = t) : ∀ c ∈ t.head?, isBlank c = false := by
  rw [← h]
  exact isBlank_head?_trim t

/-- A text that is its own trimmed form ends in no blank. -/
theorem isBlank_getLast?_of_trim {t : Text} (h : t.trim = t) :
    ∀ c ∈ t.getLast?, isBlank c = false := by
  rw [← h]
  exact isBlank_getLast?_trim t

/-- A blank in front of a text is trimmed. -/
theorem trim_cons_of_isBlank {c : Char} (hc : isBlank c = true) (t : Text) :
    trim (c :: t) = t.trim := by
  rw [trim, trim, trimLeft, trimLeft, List.dropWhile_cons_of_pos hc]

/-- A blank behind a text without blanks around it is trimmed. -/
theorem trim_append_of_isBlank {c : Char} (hc : isBlank c = true) {t : Text} (hne : t ≠ [])
    (h : t.trim = t) : trim (t ++ [c]) = t := by
  have hnil : ∀ d ∈ ([] : Text), isBlank d = true := by simp
  have hblank : ∀ d ∈ [c], isBlank d = true := by
    rw [List.forall_mem_singleton]
    exact hc
  exact trim_append_append hnil hne (isBlank_head?_of_trim h) (isBlank_getLast?_of_trim h) hblank

/-- A text without blanks has none around it. -/
theorem trim_of_forall {t : Text} (h : ∀ c ∈ t, isBlank c = false) : t.trim = t :=
  trim_eq_self (fun c hc => h c (List.mem_of_mem_head? hc))
    fun c hc => h c (List.mem_of_mem_getLast? hc)

end Text

end RuleSweep
