/-
# Strings, truth values and whole numbers of a document

A value that is written as a string, a word or a whole number is read back in front of anything
that cannot belong to a number, and what follows is left.  The other way round, a whole number
that is read is written again with no more digits than the reader allows.
-/
import Mathlib.Data.List.TakeWhile
import RuleSweep.Proofs.Json.Strings
import RuleSweep.Proofs.Text.Decimal

namespace RuleSweep

namespace Json

/-! ## Numerals -/

/-- A text does not go on with anything that would belong to a number in front of it. -/
def EndsNumber (rest : Text) : Prop :=
  ∀ c, rest.head? = some c → isDigit c = false ∧ c ≠ '.' ∧ c ≠ 'e' ∧ c ≠ 'E'

/-- A numeral ends in front of what is no digit. -/
theorem spanDigits_append {digits rest : Text} (h : ∀ d ∈ digits, isDigit d = true)
    (hend : EndsNumber rest) : spanDigits (digits ++ rest) = (digits, rest) := by
  rw [spanDigits, List.takeWhile_append_of_pos h, List.dropWhile_append_of_pos h]
  cases rest with
  | nil => rw [List.takeWhile_nil, List.dropWhile_nil, List.append_nil]
  | cons c rest =>
    have hc := (hend c rfl).1
    rw [List.takeWhile_cons_of_neg (by rw [hc]; decide), List.append_nil,
      List.dropWhile_cons_of_neg (by rw [hc]; decide)]

/-- A number in decimal ends in front of what is no digit; it is not cut behind a zero. -/
theorem spanWhole_decimal (n : Nat) {rest : Text} (hend : EndsNumber rest) :
    spanWhole (Text.decimal n ++ rest) = (Text.decimal n, rest) := by
  have hspan := spanDigits_append (Text.isDigit_of_mem_decimal n) hend
  by_cases hzero : n = 0
  · rw [hzero]
    rfl
  · have hhead := Text.head?_decimal_ne_zero (Nat.pos_of_ne_zero hzero)
    obtain ⟨d, digits, hdigits, -⟩ := Text.exists_decimal_eq_cons n
    rw [hdigits] at hspan hhead ⊢
    have hd : d ≠ '0' := fun heq => hhead (congrArg some heq)
    rw [List.cons_append, spanWhole]
    · exact hspan
    · intro more heq
      exact hd (List.cons_eq_cons.mp heq).1

/-- There is no fraction in front of what ends a number. -/
theorem spanFraction_of_endsNumber {rest : Text} (hend : EndsNumber rest) :
    spanFraction rest = ([], rest) := by
  cases rest with
  | nil => rfl
  | cons c rest =>
    have hc := (hend c rfl).2.1
    rw [spanFraction]
    intro more heq
    exact hc (List.cons_eq_cons.mp heq).1

/-- There is no exponent in front of what ends a number. -/
theorem spanExponent_of_endsNumber {rest : Text} (hend : EndsNumber rest) :
    spanExponent rest = ([], rest) := by
  cases rest with
  | nil => rfl
  | cons c rest =>
    obtain ⟨-, -, hsmall, hlarge⟩ := hend c rfl
    rw [spanExponent, if_neg]
    rintro (h | h)
    · exact hsmall h
    · exact hlarge h

/-- The digits of a whole number are read back. -/
theorem readUnsigned_decimal (negative : Bool) {n : Nat}
    (h : (Text.decimal n).length ≤ maxNumeralDigits) {rest : Text} (hend : EndsNumber rest) :
    readUnsigned negative (Text.decimal n ++ rest)
      = .ok (.integer (if negative then -(n : Int) else n), rest) := by
  have hvalue : readNumeral (Text.decimal n) = .ok n := by
    rw [readNumeral, if_pos h, Text.decimalValue_decimal]
  obtain ⟨d, digits, hdigits, -⟩ := Text.exists_decimal_eq_cons n
  rw [readUnsigned, spanWhole_decimal n hend, hdigits]
  rw [hdigits] at hvalue
  simp only [spanFraction_of_endsNumber hend, spanExponent_of_endsNumber hend, hvalue, and_self,
    if_true]

/-! ## Values -/

/-- A text is a way to write a value: it does not begin with a blank, and the value is read back
from it in front of anything that cannot belong to a number. -/
structure Writes (written : Text) (value : Value) : Prop where
  /-- No blank is skipped in front of it. -/
  skip : ∀ rest, skipBlanks (written ++ rest) = written ++ rest
  /-- It is read back. -/
  read : ∀ limit room rest, EndsNumber rest →
    readValue (limit + 1) room (written ++ rest) = .ok (value, rest)

/-- Strings are read back. -/
theorem writes_quoted (repertoire : Repertoire) (t : Text) :
    Writes (quoted repertoire t) (.ofText t) where
  skip rest := rfl
  read limit room rest hend := by
    have hquoted : quoted repertoire t ++ rest
        = '"' :: (t.flatMap (quotedChar repertoire) ++ '"' :: rest) := by
      simp [quoted]
    rw [hquoted, readValue, readString_flatMap]
    rfl

/-- Truth values are read back. -/
theorem writes_writtenBool (b : Bool) : Writes (writtenBool b) (.bool b) where
  skip rest := by
    cases b with
    | true => rfl
    | false => rfl
  read limit room rest hend := by
    cases b with
    | true => rfl
    | false => rfl

/-- A digit is none of the other characters. -/
theorem ne_of_isDigit {d c : Char} (h : isDigit d = true) (hc : isDigit c = false) : d ≠ c := by
  rintro rfl
  rw [h] at hc
  exact Bool.noConfusion hc

/-- No word has a digit in its first two places. -/
theorem find?_words_eq_none {t : Text} {d : Char} {i : Nat} (hi : i < 2) (hd : t[i]? = some d)
    (h : isDigit d = true) : (words.find? fun word => word.1.isPrefixOf t) = none := by
  have hwords : ∀ word ∈ words, ∀ i < 2, (word.1[i]?).any (!isDigit ·) = true := by decide
  rw [List.find?_eq_none]
  intro word hword hprefix
  obtain ⟨rest, rfl⟩ := List.isPrefixOf_iff_prefix.mp hprefix
  have hother := hwords word hword i hi
  rw [Option.any_eq_true] at hother
  obtain ⟨c, hc, hnot⟩ := hother
  rw [List.getElem?_append_left (List.getElem?_eq_some_iff.mp hc).1, hc, Option.some.injEq] at hd
  rw [hd, h] at hnot
  exact Bool.noConfusion hnot

/-- A number is read by its digits, for it begins no word, no string and no container. -/
theorem readValue_digits {d : Char} (h : isDigit d = true) (limit room : Nat) (t : Text) :
    readValue (limit + 1) room (d :: t) = readUnsigned false (d :: t) := by
  have hne : ∀ {c : Char} {rest : Text}, isDigit c = false → ¬ d :: t = c :: rest := by
    intro c rest hc heq
    exact ne_of_isDigit h hc (List.cons_eq_cons.mp heq).1
  rw [readValue]
  · rw [readScalar, find?_words_eq_none (i := 0) (by decide) rfl h]
    show readNumber (d :: t) = _
    rw [readNumber]
    exact fun rest => hne (by decide)
  · exact fun rest => hne (by decide)
  · exact fun rest => hne (by decide)
  · exact fun rest => hne (by decide)

/-- A number below zero is read by its sign and its digits. -/
theorem readValue_minus {d : Char} (h : isDigit d = true) (limit room : Nat) (t : Text) :
    readValue (limit + 1) room ('-' :: d :: t) = readUnsigned true (d :: t) := by
  rw [readValue]
  · rw [readScalar, find?_words_eq_none (i := 1) (by decide) rfl h]
    rfl
  all_goals simp

/-- A digit is no blank. -/
theorem isBlank_of_isDigit {d : Char} (h : isDigit d = true) : isBlank d = false := by
  simp [isBlank, ne_of_isDigit h (by decide : isDigit ' ' = false),
    ne_of_isDigit h (by decide : isDigit '\t' = false),
    ne_of_isDigit h (by decide : isDigit '\n' = false),
    ne_of_isDigit h (by decide : isDigit '\r' = false)]

section Numbers

variable {n : Nat}

/-- Numbers in decimal are read back. -/
theorem writes_decimal (h : (Text.decimal n).length ≤ maxNumeralDigits) :
    Writes (Text.decimal n) (.integer n) := by
  obtain ⟨d, digits, hdigits, hd⟩ := Text.exists_decimal_eq_cons n
  constructor
  · intro rest
    rw [hdigits, skipBlanks, List.cons_append, List.dropWhile_cons_of_neg]
    rw [isBlank_of_isDigit hd]
    decide
  · intro limit room rest hend
    have hread := readUnsigned_decimal false h hend
    rw [hdigits, List.cons_append] at hread ⊢
    rw [readValue_digits hd, hread]
    rfl

/-- Numbers in decimal behind a minus sign are read back. -/
theorem writes_minus_decimal (h : (Text.decimal n).length ≤ maxNumeralDigits) :
    Writes ('-' :: Text.decimal n) (.integer (-(n : Int))) := by
  obtain ⟨d, digits, hdigits, hd⟩ := Text.exists_decimal_eq_cons n
  constructor
  · intro rest
    rfl
  · intro limit room rest hend
    have hread := readUnsigned_decimal true h hend
    rw [hdigits, List.cons_append] at hread
    rw [hdigits, List.cons_append, List.cons_append, readValue_minus hd, hread]
    rfl

end Numbers

/-- Whole numbers that are not too long are read back. -/
theorem writes_signedDecimal {n : Int} (h : (Text.decimal n.natAbs).length ≤ maxNumeralDigits) :
    Writes (Text.signedDecimal n) (.integer n) := by
  unfold Text.signedDecimal
  split
  · have hvalue : -((n.natAbs : Nat) : Int) = n := by omega
    have hwrites := writes_minus_decimal h
    rw [hvalue] at hwrites
    exact hwrites
  · have hvalue : ((n.natAbs : Nat) : Int) = n := by omega
    have hwrites := writes_decimal h
    rw [hvalue] at hwrites
    exact hwrites

/-! ## Values in a document -/

/-- A text is read back from the document that holds it. -/
theorem writes_ofText (depth : Nat) (t : Text) :
    Writes ((Value.ofText t).written depth) (.ofText t) := by
  rw [Value.ofText, Value.written, writtenString_map]
  exact writes_quoted .ascii t

/-- A truth value is read back from the document that holds it. -/
theorem writes_bool (depth : Nat) (b : Bool) : Writes ((Value.bool b).written depth) (.bool b) := by
  rw [Value.written]
  exact writes_writtenBool b

/-- A whole number that is not too long is read back from the document that holds it. -/
theorem writes_integer (depth : Nat) {n : Int}
    (h : (Text.decimal n.natAbs).length ≤ maxNumeralDigits) :
    Writes ((Value.integer n).written depth) (.integer n) := by
  rw [Value.written]
  exact writes_signedDecimal h

/-! ## Whole numbers that are read -/

/-- A value that is written without brackets and quotes, with no more digits than the reader
allows if it is a whole number. -/
def IsScalar : Value → Prop
  | .null | .bool _ | .real _ => True
  | .integer n => (Text.decimal n.natAbs).length ≤ maxNumeralDigits
  | .string _ | .array _ | .object _ => False

/-- A value is written with no more digits than the reader allows if it is a whole number. -/
def IsShort : Value → Prop
  | .integer n => (Text.decimal n.natAbs).length ≤ maxNumeralDigits
  | _ => True

/-- What is written without brackets and quotes is short. -/
theorem isShort_of_isScalar {value : Value} (h : IsScalar value) : IsShort value := by
  cases value with
  | integer n => exact h
  | _ => trivial

/-- What stands in front of the point is a run of digits. -/
theorem isDigit_of_mem_spanWhole {t : Text} : ∀ d ∈ (spanWhole t).1, isDigit d = true := by
  intro d hd
  unfold spanWhole at hd
  split at hd
  · rw [List.mem_singleton] at hd
    rw [hd]
    decide
  · exact List.mem_takeWhile_imp hd

/-- The digits of a number make a whole number that is short, or one of another kind. -/
theorem isScalar_of_readUnsigned {negative : Bool} {t rest : Text} {value : Value}
    (h : readUnsigned negative t = .ok (value, rest)) : IsScalar value := by
  have hdigits := isDigit_of_mem_spanWhole (t := t)
  unfold readUnsigned at h
  split at h
  · exact absurd h (by simp)
  · next digits front hne hspan =>
    rw [hspan] at hdigits
    simp only at h
    split at h
    · split at h
      · exact absurd h (by simp)
      · next n hvalue =>
        have hlength : (Text.decimal n).length ≤ maxNumeralDigits := by
          unfold readNumeral at hvalue
          split at hvalue
          · next hshort =>
            rw [Except.ok.injEq] at hvalue
            rw [← hvalue]
            exact Nat.le_trans (Text.length_decimal_decimalValue_le hne hdigits) hshort
          · exact absurd hvalue (by simp)
        have hsize : (if negative = true then -(n : Int) else n).natAbs = n := by
          split <;> omega
        rw [Except.ok.injEq, Prod.mk.injEq] at h
        rw [← h.1, IsScalar, hsize]
        exact hlength
    · -- with a fraction or an exponent it is no whole number
      rw [Except.ok.injEq, Prod.mk.injEq] at h
      rw [← h.1]
      trivial

/-- What is read without brackets and quotes is a word or a number. -/
theorem isScalar_of_readScalar {t rest : Text} {value : Value}
    (h : readScalar t = .ok (value, rest)) : IsScalar value := by
  unfold readScalar at h
  split at h
  · next word found hfound =>
    have hwords : ∀ word ∈ words, IsScalar word.2 := by simp [words, IsScalar]
    rw [Except.ok.injEq, Prod.mk.injEq] at h
    rw [← h.1]
    exact hwords (word, found) (List.mem_of_find?_eq_some hfound)
  · unfold readNumber at h
    split at h
    · exact isScalar_of_readUnsigned h
    · exact isScalar_of_readUnsigned h

/-- What a value that is read can be: a string, an object with the fields that were read, an
array, or something without brackets and quotes. -/
theorem readValue_cases {limit room : Nat} {t rest : Text} {value : Value}
    (h : readValue limit room t = .ok (value, rest)) :
    (∃ codePoints, value = .string codePoints) ∨
      (∃ fields, value = .object fields ∧
        (fields = [] ∨ ∃ limit room front, readFields limit room front = .ok (fields, rest))) ∨
      (∃ items, value = .array items) ∨ IsScalar value := by
  cases limit with
  | zero => exact absurd h (by simp [readValue])
  | succ limit =>
    unfold readValue at h
    split at h
    · split at h
      · exact absurd h (by simp)
      · rw [Except.ok.injEq, Prod.mk.injEq] at h
        exact .inl ⟨_, h.1.symm⟩
    · next behind =>
      split at h
      · exact absurd h (by simp)
      · next room =>
        split at h
        · rw [Except.ok.injEq, Prod.mk.injEq] at h
          exact .inr (.inl ⟨[], h.1.symm, .inl rfl⟩)
        · cases hread : readFields limit room (skipBlanks behind) with
          | error e => rw [hread] at h; exact absurd h (by simp [Except.map])
          | ok read =>
            rw [hread] at h
            simp only [Except.map, Except.ok.injEq, Prod.mk.injEq] at h
            refine .inr (.inl ⟨read.1, h.1.symm, .inr ⟨limit, room, skipBlanks behind, ?_⟩⟩)
            rw [hread, ← h.2]
    · next behind =>
      split at h
      · exact absurd h (by simp)
      · next room =>
        split at h
        · rw [Except.ok.injEq, Prod.mk.injEq] at h
          exact .inr (.inr (.inl ⟨[], h.1.symm⟩))
        · cases hread : readItems limit room (skipBlanks behind) with
          | error e => rw [hread] at h; exact absurd h (by simp [Except.map])
          | ok read =>
            rw [hread] at h
            simp only [Except.map, Except.ok.injEq, Prod.mk.injEq] at h
            exact .inr (.inr (.inl ⟨read.1, h.1.symm⟩))
    · exact .inr (.inr (.inr (isScalar_of_readScalar h)))

/-- Every value that is read is short. -/
theorem isShort_of_readValue {limit room : Nat} {t rest : Text} {value : Value}
    (h : readValue limit room t = .ok (value, rest)) : IsShort value := by
  rcases readValue_cases h with ⟨codePoints, rfl⟩ | ⟨fields, rfl, -⟩ | ⟨items, rfl⟩ | hscalar
  · trivial
  · trivial
  · trivial
  · exact isShort_of_isScalar hscalar

/-- The value of a field that is read is itself read. -/
theorem exists_readValue_of_mem {limit room : Nat} {t rest : Text} {fields : List (List Nat × Value)}
    (h : readFields limit room t = .ok (fields, rest)) :
    ∀ field ∈ fields, ∃ limit front behind,
      readValue limit room front = .ok (field.2, behind) := by
  induction limit generalizing t fields rest with
  | zero => exact absurd h (by simp [readFields])
  | succ limit ih =>
    unfold readFields at h
    split at h
    · split at h
      · exact absurd h (by simp)
      · split at h
        · split at h
          · exact absurd h (by simp)
          · next value behind hvalue =>
            split at h
            · rw [Except.ok.injEq, Prod.mk.injEq] at h
              rw [← h.1, List.forall_mem_singleton]
              exact ⟨_, _, _, hvalue⟩
            · cases hmore : readFields limit room _ with
              | error e => rw [hmore] at h; exact absurd h (by simp [Except.map])
              | ok more =>
                rw [hmore] at h
                simp only [Except.map, Except.ok.injEq, Prod.mk.injEq] at h
                rw [← h.1, List.forall_mem_cons]
                exact ⟨⟨_, _, _, hvalue⟩, ih hmore⟩
            · exact absurd h (by simp)
        · exact absurd h (by simp)
    · exact absurd h (by simp)

/-- The value of a field of an object that is read is itself read. -/
theorem exists_readValue_of_mem_object {limit room : Nat} {t rest : Text}
    {fields : List (List Nat × Value)} (h : readValue limit room t = .ok (.object fields, rest)) :
    ∀ field ∈ fields, ∃ limit room front behind,
      readValue limit room front = .ok (field.2, behind) := by
  rcases readValue_cases h with ⟨codePoints, hobject⟩ | ⟨found, hobject, hfound⟩ |
    ⟨items, hobject⟩ | hscalar
  · exact absurd hobject (by simp)
  · rw [Value.object.injEq] at hobject
    rw [hobject]
    rcases hfound with rfl | ⟨limit, room, front, hread⟩
    · exact List.forall_mem_nil _
    · intro field hfield
      obtain ⟨limit, front, behind, hvalue⟩ := exists_readValue_of_mem hread field hfield
      exact ⟨limit, room, front, behind, hvalue⟩
  · exact absurd hobject (by simp)
  · exact absurd hscalar (by simp [IsScalar])

/-- A document holds the value that is read from its beginning. -/
theorem readValue_of_parse {document : Text} {value : Value} (h : parse document = .ok value) :
    ∃ limit room front rest, readValue limit room front = .ok (value, rest) := by
  unfold parse at h
  split at h
  · exact absurd h (by simp)
  · next found rest hvalue =>
    split at h
    · rw [Except.ok.injEq] at h
      rw [h] at hvalue
      exact ⟨_, _, _, _, hvalue⟩
    · exact absurd h (by simp)

/-- **The whole numbers among the fields of a document are short**, and so are those among the
fields of an object that is one of its fields. -/
theorem isShort_of_parse {document : Text} {fields : List (List Nat × Value)}
    (h : parse document = .ok (.object fields)) :
    ∀ field ∈ fields, IsShort field.2 ∧
      ∀ nested, field.2 = .object nested → ∀ inner ∈ nested, IsShort inner.2 := by
  obtain ⟨_, _, _, _, hobject⟩ := readValue_of_parse h
  intro field hfield
  obtain ⟨_, _, _, _, hvalue⟩ := exists_readValue_of_mem_object hobject field hfield
  refine ⟨isShort_of_readValue hvalue, ?_⟩
  intro nested hnested inner hinner
  rw [hnested] at hvalue
  obtain ⟨_, _, _, _, hread⟩ := exists_readValue_of_mem_object hvalue inner hinner
  exact isShort_of_readValue hread

end Json

end RuleSweep
