/-
# Reading what was written in UTF-16

A character is written as one unit or as a pair of surrogates, and a unit as two bytes in one of
two orders.  In either order the two bytes give the unit back, and the units give the character
back: one that is no surrogate stands for itself, and a pair is joined again.
-/
import RuleSweep.Charset.Utf16
import RuleSweep.Proofs.Charset.Utf8
import RuleSweep.Proofs.Text.Units

namespace RuleSweep

namespace Utf16

variable {n : Nat}

/-- The two bytes of a unit give the unit back. -/
theorem unit_bytes (order : ByteOrder) (h : n < 0x10000) :
    ∃ a b, order.bytes n = [a, b] ∧ order.unit a b = n := by
  have hlow : (n % 0x100).toUInt8.toNat = n % 0x100 :=
    Utf8.toNat_toUInt8 (Nat.mod_lt n (by decide))
  have hhigh : (n / 0x100).toUInt8.toNat = n / 0x100 := Utf8.toNat_toUInt8 (by omega)
  cases order with
  | little =>
    refine ⟨_, _, rfl, ?_⟩
    rw [ByteOrder.unit, hlow, hhigh]
    omega
  | big =>
    refine ⟨_, _, rfl, ?_⟩
    rw [ByteOrder.unit, hlow, hhigh]
    omega

/-- A unit that is no surrogate is read as the character of its number. -/
theorem next_one (order : ByteOrder) (position : Nat) {a b : UInt8} (rest : Bytes)
    (hunit : order.unit a b = n) (hlow : isLowSurrogate n = false)
    (hhigh : isHighSurrogate n = false) :
    next order position a (b :: rest) = .ok (Char.ofNat n, 1) := by
  simp [next, hunit, hlow, hhigh]

/-- A pair of surrogates is joined. -/
theorem next_two (order : ByteOrder) (position : Nat) {a b c d : UInt8} {high low : Nat}
    (rest : Bytes) (hfirst : order.unit a b = high) (hsecond : order.unit c d = low)
    (hhigh : isHighSurrogate high = true) (hlow : isLowSurrogate low = true) :
    next order position a (b :: c :: d :: rest)
      = .ok (Char.ofNat (joinSurrogates high low), 3) := by
  simp [next, hfirst, hsecond, hhigh, hlow, isLowSurrogate_of_isHighSurrogate hhigh]

/-- Every character is read back from its bytes, in either order. -/
theorem readsBack (order : ByteOrder) :
    NextChar.ReadsBack (next order) fun c => (Text.units c).flatMap order.bytes := by
  intro c
  have hsmall : ∀ unit ∈ Text.units c, unit < 0x10000 := fun unit => Text.lt_of_mem_units
  obtain ⟨-, hunits⟩ | ⟨high, low, hunits, hhigh, hlow, hjoin⟩ := Text.units_cases c
  · rw [hunits, List.forall_mem_singleton] at hsmall
    obtain ⟨a, b, hbytes, hunit⟩ := unit_bytes order hsmall
    refine ⟨a, [b], by simp [hunits, hbytes], ?_⟩
    intro position rest
    have hread := next_one order position rest hunit (isLowSurrogate_toNat c)
      (isHighSurrogate_toNat c)
    rw [Char.ofNat_toNat] at hread
    exact hread
  · rw [hunits, List.forall_mem_cons, List.forall_mem_singleton] at hsmall
    obtain ⟨a, b, hfirst, hunit⟩ := unit_bytes order hsmall.1
    obtain ⟨a', b', hsecond, hunit'⟩ := unit_bytes order hsmall.2
    refine ⟨a, [b, a', b'], by simp [hunits, hfirst, hsecond], ?_⟩
    intro position rest
    have hread := next_two order position rest hunit hunit' hhigh hlow
    rw [hjoin, Char.ofNat_toNat] at hread
    exact hread

/-- **A text that was written in UTF-16 is read back**, from any position and in either order. -/
theorem decodeFrom_encode (order : ByteOrder) (position : Nat) (t : Text) :
    decodeFrom order position (encode order t) = .ok t :=
  NextChar.decodeFrom_flatMap (readsBack order) position t

/-- A byte-order mark tells its own order. -/
theorem markedOrder?_mark (rest : Bytes) :
    markedOrder? (ByteOrder.little.bytes mark ++ rest) = some .little := by
  rfl

end Utf16

end RuleSweep
