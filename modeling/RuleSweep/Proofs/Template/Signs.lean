/-
# Signs and tokens

A text is cut into signs from left to right, and the signs make up a template.  This module
says how each part of a text is cut, and what template comes of the signs: the tokens that
they stand for, put one in front of the other so that characters join.  The only thing that
can go wrong is a numeral that is too long, and the first such numeral is the one that is
refused (`ofSigns_eq`).
-/
import RuleSweep.Template.Reading

namespace RuleSweep

/-- A run of digits is longer than the numerals that are read. -/
def Text.isOverlong (digits : Text) : Bool :=
  maxNumeralDigits < digits.length

namespace Template

/-! ## Cutting a text into signs -/

/-- Anything but a dollar is read as it is. -/
theorem signs_append {a : Text} (ha : '$' ∉ a) (t : Text) :
    signs (a ++ t) = a.map .char ++ signs t := by
  induction a with
  | nil => rfl
  | cons c a ih =>
    rw [List.mem_cons, not_or] at ha
    have hcons : signs (c :: (a ++ t)) = .char c :: signs (a ++ t) := by
      rw [signs, signsFrom, signs]
      exact Ne.symm ha.1
    rw [List.cons_append, hcons, ih ha.2, List.map_cons, List.cons_append]

/-- The mark of the whole line is read as the whole line. -/
theorem signs_wholeLineMark (t : Text) : signs (wholeLineMark ++ t) = .wholeLine :: signs t :=
  rfl

/-- Two dollars are read as a dollar, unless they begin the mark of the whole line. -/
theorem signs_dollars {t : Text} (h : ¬ "LINE$$".toList <+: t) :
    signs ('$' :: '$' :: t) = .char '$' :: signs t := by
  have hmark : ¬ wholeLineMark.isPrefixOf ('$' :: '$' :: t) = true := by
    rw [List.isPrefixOf_iff_prefix]
    intro hmark
    exact h (List.cons_prefix_cons.mp (List.cons_prefix_cons.mp hmark).2).2
  rw [signs, signsFrom, if_neg hmark, List.head?_cons, if_pos rfl, signsFrom, signs]

/-- Characters that have been read are passed over. -/
theorem signsFrom_length_append (a t : Text) : signsFrom a.length (a ++ t) = signs t := by
  induction a with
  | nil => rfl
  | cons c a ih => exact ih

/-- A dollar and all digits behind it are read as a numeral. -/
theorem signs_numeral {digits t : Text} (hne : digits ≠ [])
    (hdigits : ∀ d ∈ digits, isDigit d = true) (ht : t.takeWhile isDigit = []) :
    signs ('$' :: (digits ++ t)) = .numeral digits :: signs t := by
  have htake : (digits ++ t).takeWhile isDigit = digits := by
    rw [List.takeWhile_append_of_pos hdigits, ht, List.append_nil]
  obtain ⟨d, digits, rfl⟩ := List.exists_cons_of_ne_nil hne
  have hdollar : d ≠ '$' := by
    rintro rfl
    exact absurd (hdigits '$' List.mem_cons_self) (by decide)
  have hmark : ¬ wholeLineMark.isPrefixOf ('$' :: (d :: digits ++ t)) = true := by
    rw [List.isPrefixOf_iff_prefix]
    intro hmark
    have htail := (List.cons_prefix_cons.mp hmark).2
    exact hdollar (List.cons_prefix_cons.mp htail).1.symm
  rw [signs, signsFrom, if_neg hmark, if_neg (by simpa using hdollar), htake]
  simp only [signsFrom_length_append]

/-! ## From signs to tokens -/

/-- The token that a sign stands for. -/
def Sign.token : Sign → Token
  | .char c => .literal [c]
  | .numeral digits => .capture (Text.decimalValue digits)
  | .wholeLine => .wholeLine

/-- Put an atom in front of a template; a character joins a literal that begins there. -/
def consAtom : Token → Template → Template
  | .literal text, template => text.foldr consChar template
  | token, template => token :: template

/-- The numerals of a sign: at most one. -/
def Sign.numerals : Sign → List Text
  | .numeral digits => [digits]
  | _ => []

/-- The numerals of some signs are the numerals among them. -/
theorem mem_flatMap_numerals {list : List Sign} {digits : Text} :
    digits ∈ list.flatMap Sign.numerals ↔ .numeral digits ∈ list := by
  rw [List.mem_flatMap]
  constructor
  · rintro ⟨sign, hsign, hdigits⟩
    cases sign with
    | numeral other => rwa [List.mem_singleton.mp hdigits]
    | char c => exact absurd hdigits List.not_mem_nil
    | wholeLine => exact absurd hdigits List.not_mem_nil
  · intro hsign
    exact ⟨.numeral digits, hsign, List.mem_singleton_self digits⟩

/-- **The template of some signs in closed form.**  The first numeral that is too long is
refused; if there is none, the tokens of the signs make up the template. -/
theorem ofSigns_eq (list : List Sign) :
    ofSigns list
      = match (list.flatMap Sign.numerals).find? Text.isOverlong with
        | some digits => .error ⟨digits.length⟩
        | none => .ok ((list.map Sign.token).foldr consAtom []) := by
  induction list with
  | nil => rfl
  | cons sign list ih =>
    -- behind a sign that is no numeral the same numerals remain to be read
    have hmap : ∀ f : Template → Template,
        (ofSigns list).map f
          = match (list.flatMap Sign.numerals).find? Text.isOverlong with
            | some digits => .error ⟨digits.length⟩
            | none => .ok (f ((list.map Sign.token).foldr consAtom [])) := by
      intro f
      rw [ih]
      split <;> rfl
    rw [List.flatMap_cons, List.map_cons, List.foldr_cons]
    cases sign with
    | char c => exact hmap (consChar c)
    | wholeLine => exact hmap (.wholeLine :: ·)
    | numeral digits =>
      rw [ofSigns, readNumeral, Sign.numerals, List.singleton_append, List.find?_cons]
      by_cases hshort : digits.length ≤ maxNumeralDigits
      · have hfits : Text.isOverlong digits = false := decide_eq_false (Nat.not_lt.mpr hshort)
        rw [if_pos hshort, hfits]
        exact hmap (.capture (Text.decimalValue digits) :: ·)
      · have hlong : Text.isOverlong digits = true := decide_eq_true (Nat.lt_of_not_le hshort)
        rw [if_neg hshort, hlong]

/-- **Signs make up a template exactly if no numeral among them is too long, and it is the
one that their tokens make up.** -/
theorem ofSigns_eq_ok_iff {list : List Sign} {template : Template} :
    ofSigns list = .ok template ↔
      (∀ digits, .numeral digits ∈ list → digits.length ≤ maxNumeralDigits) ∧
        template = (list.map Sign.token).foldr consAtom [] := by
  have hshort : (list.flatMap Sign.numerals).find? Text.isOverlong = none ↔
      ∀ digits, .numeral digits ∈ list → digits.length ≤ maxNumeralDigits := by
    simp only [List.find?_eq_none, mem_flatMap_numerals, Text.isOverlong, decide_eq_true_eq,
      Nat.not_lt]
  rw [ofSigns_eq, ← hshort]
  cases (list.flatMap Sign.numerals).find? Text.isOverlong with
  | none => simp [eq_comm]
  | some digits => simp

/-- If no numeral is too long, the tokens of the signs make up the template. -/
theorem ofSigns_eq_ok {list : List Sign}
    (h : ∀ digits, .numeral digits ∈ list → digits.length ≤ maxNumeralDigits) :
    ofSigns list = .ok ((list.map Sign.token).foldr consAtom []) :=
  ofSigns_eq_ok_iff.mpr ⟨h, rfl⟩

end Template

end RuleSweep
