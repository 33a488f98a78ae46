/-
# Numbers in decimal

The decimal digits of a number are a numeral of that value, without a leading zero if the
number is positive.  There is no shorter numeral of the same value, and a smaller number has no
more digits.
-/
import Mathlib.Data.List.Basic
import Mathlib.Data.List.Induction
import RuleSweep.Text.Numeral

namespace RuleSweep

namespace Text

/-- The digits of a number have its value. -/
theorem decimalValue_decimal (n : Nat) : decimalValue (decimal n) = n :=
  Nat.ofDigitChars_toDigits (by decide) (by decide)

/-- There is a digit. -/
theorem decimal_ne_nil (n : Nat) : decimal n ≠ [] :=
  Nat.toDigits_ne_nil

/-- A number in decimal is a run of digits. -/
theorem isDigit_of_mem_decimal (n : Nat) : ∀ d ∈ decimal n, isDigit d = true := by
  intro d hd
  have hdigit : d.isDigit = true := Nat.isDigit_of_mem_toDigits (by decide) (by decide) hd
  simpa [isDigit, Char.isDigit, Char.le_def] using hdigit

/-- A number in decimal begins with a digit. -/
theorem exists_decimal_eq_cons (n : Nat) :
    ∃ d digits, decimal n = d :: digits ∧ isDigit d = true := by
  cases hdigits : decimal n with
  | nil => exact absurd hdigits (decimal_ne_nil n)
  | cons d digits =>
    have hd : d ∈ decimal n := by
      rw [hdigits]
      exact List.mem_cons_self
    exact ⟨d, digits, rfl, isDigit_of_mem_decimal n d hd⟩

/-- The last digit stands behind the digits of the tenth part. -/
theorem decimal_eq (n : Nat) :
    decimal n
      = if n < 10 then [Nat.digitChar n] else decimal (n / 10) ++ [Nat.digitChar (n % 10)] :=
  Nat.toDigits_eq_if (by decide)

/-- A smaller number has no more digits. -/
theorem length_decimal_mono {m n : Nat} (h : m ≤ n) : (decimal m).length ≤ (decimal n).length := by
  have hpos : 0 < (decimal n).length := List.length_pos_iff.mpr (decimal_ne_nil n)
  rw [decimal, Nat.length_toDigits_le_iff (by decide) hpos]
  exact Nat.lt_of_le_of_lt h ((Nat.length_toDigits_le_iff (by decide) hpos).mp (Nat.le_refl _))

/-- The digits of a positive number do not begin with a zero. -/
theorem head?_decimal_ne_zero {n : Nat} (h : 0 < n) : (decimal n).head? ≠ some '0' := by
  induction n using Nat.strongRecOn with
  | ind n ih =>
    rw [decimal_eq]
    split
    · next hlt =>
      intro hzero
      rw [List.head?_cons, Option.some.injEq] at hzero
      have hdigits : ∀ k < 10, Nat.digitChar k = '0' → k = 0 := by decide
      have heq := hdigits n hlt hzero
      omega
    · next hge =>
      rw [List.head?_append_of_ne_nil _ (decimal_ne_nil _)]
      exact ih (n / 10) (by omega) (by omega)

/-- The value of a numeral with one more digit. -/
theorem decimalValue_append (digits : Text) (d : Char) :
    decimalValue (digits ++ [d]) = 10 * decimalValue digits + (d.toNat - '0'.toNat) := by
  rw [decimalValue, List.foldl_append]
  rfl

/-- The value of a digit. -/
theorem toNat_sub_lt_of_isDigit {d : Char} (h : isDigit d = true) : d.toNat - '0'.toNat < 10 := by
  rw [isDigit, Bool.and_eq_true, decide_eq_true_eq, decide_eq_true_eq, Char.le_def, Char.le_def]
    at h
  have hlast : d.toNat ≤ '9'.toNat := UInt32.le_iff_toNat_le.mp h.2
  have hnine : '9'.toNat = '0'.toNat + 9 := rfl
  omega

/-- A numeral has at least as many digits as its value needs. -/
theorem length_decimal_decimalValue_le {digits : Text} (hne : digits ≠ [])
    (h : ∀ d ∈ digits, isDigit d = true) :
    (decimal (decimalValue digits)).length ≤ digits.length := by
  induction digits using List.reverseRecOn with
  | nil => exact absurd rfl hne
  | append_singleton front d ih =>
    have hd := toNat_sub_lt_of_isDigit (h d (List.mem_append_right front List.mem_cons_self))
    rw [decimalValue_append, List.length_append, List.length_singleton, decimal_eq]
    split
    · rw [List.length_singleton]
      omega
    · next hge =>
      have htenth : (10 * decimalValue front + (d.toNat - '0'.toNat)) / 10
          = decimalValue front := by omega
      rw [htenth, List.length_append, List.length_singleton]
      apply Nat.succ_le_succ
      apply ih
      · -- the empty numeral has the value zero, which needs no second digit
        rintro rfl
        rw [show decimalValue [] = 0 from rfl] at hge
        omega
      · exact fun e he => h e (List.mem_append_left [d] he)

end Text

end RuleSweep
