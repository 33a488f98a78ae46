/-
# Reading what was written in UTF-8, and writing what was read

In any character set, bytes are read back as the text they were written from if every single
character is read back in front of whatever follows it.  For UTF-8 the character is one of four
sizes, and its bytes say which: `Utf8.decode_encode`.

A character is written in UTF-8 in one way only, and it is read from this one.  So the bytes
from which a text was read are those in which it is written: `Utf8.encode_of_decode`.
-/
import RuleSweep.Charset.Utf8

namespace RuleSweep

namespace NextChar

variable {next : NextChar} {write : Char → Bytes}

/-- Every character is written in at least one byte, and is read back from its bytes in front of
any others. -/
def ReadsBack (next : NextChar) (write : Char → Bytes) : Prop :=
  ∀ (c : Char), ∃ first tail, write c = first :: tail ∧
    ∀ (position : Nat) (rest : Bytes), next position first (tail ++ rest) = .ok (c, tail.length)

/-- The bytes of a character behind its first one are passed over. -/
theorem decodeOnto_skip (position : Nat) (done : Text) (tail rest : Bytes) :
    decodeOnto next tail.length position done (tail ++ rest)
      = decodeOnto next 0 (position + tail.length) done rest := by
  induction tail generalizing position with
  | nil => rfl
  | cons b tail ih =>
    rw [List.cons_append, List.length_cons, decodeOnto, ih, Nat.add_right_comm, Nat.add_assoc]

/-- Characters that were written are read one after the other. -/
theorem decodeOnto_flatMap (h : ReadsBack next write) (t : Text) (position : Nat) (done : Text) :
    decodeOnto next 0 position done (t.flatMap write) = .ok (done.reverse ++ t) := by
  induction t generalizing position done with
  | nil => rw [List.flatMap_nil, decodeOnto, List.append_nil]
  | cons c t ih =>
    obtain ⟨first, tail, hwrite, hnext⟩ := h c
    rw [List.flatMap_cons, hwrite, List.cons_append, decodeOnto, hnext]
    show decodeOnto next tail.length (position + 1) (c :: done) (tail ++ t.flatMap write) = _
    rw [decodeOnto_skip, ih, List.reverse_cons, List.append_assoc, List.singleton_append]

/-- **What was written is read back.** -/
theorem decodeFrom_flatMap (h : ReadsBack next write) (position : Nat) (t : Text) :
    decodeFrom next position (t.flatMap write) = .ok t := by
  rw [decodeFrom, decodeOnto_flatMap h]
  rfl

/-- A character is read from the bytes in which it is written. -/
def WritesBack (next : NextChar) (write : Char → Bytes) : Prop :=
  ∀ {position : Nat} {b : UInt8} {rest : Bytes} {c : Char} {more : Nat},
    next position b rest = .ok (c, more) →
    ∃ tail behind, rest = tail ++ behind ∧ tail.length = more ∧ write c = b :: tail

/-- The bytes behind those that are passed over are those of the characters that are read. -/
theorem flatMap_of_decodeOnto (h : WritesBack next write) {skip position : Nat} {done : Text}
    {bytes : Bytes} {t : Text} (hread : decodeOnto next skip position done bytes = .ok t) :
    ∃ later, t = done.reverse ++ later ∧ later.flatMap write = bytes.drop skip := by
  fun_induction decodeOnto next skip position done bytes with
  | case1 skip position done =>
    rw [← Except.ok.inj hread]
    exact ⟨[], by simp, by simp⟩
  | case2 position done skip b rest ih => exact ih hread
  | case3 position done b rest e hnext => exact absurd hread (by simp)
  | case4 position done b rest c more hnext ih =>
    obtain ⟨later, ht, hlater⟩ := ih hread
    obtain ⟨tail, behind, rfl, rfl, hwrite⟩ := h hnext
    refine ⟨c :: later, ?_, ?_⟩
    · rw [ht, List.reverse_cons, List.append_assoc, List.singleton_append]
    · rw [List.flatMap_cons, hwrite, hlater, List.drop_left, List.drop_zero, List.cons_append]

/-- **What was read is written as it was.** -/
theorem flatMap_of_decode (h : WritesBack next write) {bytes : Bytes} {t : Text}
    (hread : decode next bytes = .ok t) : t.flatMap write = bytes := by
  obtain ⟨later, ht, hlater⟩ := flatMap_of_decodeOnto h hread
  rw [List.reverse_nil, List.nil_append] at ht
  rw [ht, hlater, List.drop_zero]

end NextChar

namespace Utf8

/-! ## Bytes and their numbers -/

/-- A number below 256 is that of its byte. -/
theorem toNat_toUInt8 {n : Nat} (h : n < 0x100) : n.toUInt8.toNat = n := by
  rw [Nat.toUInt8, UInt8.toNat_ofNat']
  exact Nat.mod_eq_of_lt h

/-- The bytes that continue a character, by their numbers. -/
theorem isTail_iff {b : UInt8} : isTail b = true ↔ 0x80 ≤ b.toNat ∧ b.toNat ≤ 0xBF := by
  rw [isTail, Bool.and_eq_true, decide_eq_true_eq, decide_eq_true_eq, UInt8.le_iff_toNat_le,
    UInt8.le_iff_toNat_le]
  rfl

/-- The second bytes of characters of three bytes, by their numbers: `E0` begins no shorter
character, and `ED` no surrogate. -/
theorem isSecondOfThree_iff {a b : UInt8} :
    isSecondOfThree a b = true ↔ isTail b = true ∧ (a.toNat = 0xE0 → 0xA0 ≤ b.toNat) ∧
      (a.toNat = 0xED → b.toNat < 0xA0) := by
  simp [isSecondOfThree, UInt8.le_iff_toNat_le, UInt8.lt_iff_toNat_lt, ← UInt8.toNat_inj,
    and_assoc, Decidable.imp_iff_not_or]

/-- The second bytes of characters of four bytes, by their numbers: `F0` begins no shorter
character, and `F4` nothing above the last code point. -/
theorem isSecondOfFour_iff {a b : UInt8} :
    isSecondOfFour a b = true ↔ isTail b = true ∧ (a.toNat = 0xF0 → 0x90 ≤ b.toNat) ∧
      (a.toNat = 0xF4 → b.toNat < 0x90) := by
  simp [isSecondOfFour, UInt8.le_iff_toNat_le, UInt8.lt_iff_toNat_lt, ← UInt8.toNat_inj,
    and_assoc, Decidable.imp_iff_not_or]

/-- Six bits in a byte of their own continue a character. -/
theorem isTail_toUInt8 {bits : Nat} (h : bits < 0x40) : isTail (0x80 + bits).toUInt8 = true := by
  rw [isTail_iff, toNat_toUInt8 (by omega)]
  omega

/-- Six bits in a byte of their own are added to the bits before them. -/
theorem joinTail_toUInt8 (front : Nat) {bits : Nat} (h : bits < 0x40) :
    joinTail front (0x80 + bits).toUInt8 = front * 0x40 + bits := by
  unfold joinTail
  rw [toNat_toUInt8 (by omega), Nat.add_sub_cancel_left]

/-! ## The four sizes -/

section Sizes

variable {n : Nat} (position : Nat) (rest : Bytes)

/-- A character of one byte is read back. -/
theorem next_one (h : n < 0x80) : next position n.toUInt8 rest = .ok (Char.ofNat n, 0) := by
  have ha := toNat_toUInt8 (n := n) (by omega)
  have hfirst : n.toUInt8 < 0x80 := by
    rw [UInt8.lt_iff_toNat_lt, ha]
    exact h
  unfold next
  rw [if_pos hfirst, ha]

/-- A character of two bytes is read back. -/
theorem next_two (hlow : 0x80 ≤ n) (h : n < 0x800) :
    next position (0xC0 + n / 0x40).toUInt8 ((0x80 + n % 0x40).toUInt8 :: rest)
      = .ok (Char.ofNat n, 1) := by
  have ha := toNat_toUInt8 (n := 0xC0 + n / 0x40) (by omega)
  generalize (0xC0 + n / 0x40).toUInt8 = a at ha ⊢
  have hone : ¬ a < 0x80 := by
    simp only [UInt8.lt_iff_toNat_lt, ha, UInt8.reduceToNat]
    omega
  have hbad : ¬ (a < 0xC2 || 0xF4 < a) = true := by
    simp only [UInt8.lt_iff_toNat_lt, ha, UInt8.reduceToNat, Bool.or_eq_true, decide_eq_true_eq]
    omega
  have htwo : a < 0xE0 := by
    simp only [UInt8.lt_iff_toNat_lt, ha, UInt8.reduceToNat]
    omega
  have hbits : n % 0x40 < 0x40 := Nat.mod_lt n (by decide)
  unfold next
  rw [if_neg hone, if_neg hbad, if_pos htwo]
  show (if isTail _ then _ else _) = _
  rw [isTail_toUInt8 hbits, if_pos rfl, joinTail_toUInt8 _ hbits, ha, Nat.add_sub_cancel_left,
    Nat.div_add_mod']

/-- A character of three bytes is read back. -/
theorem next_three (hlow : 0x800 ≤ n) (h : n < 0x10000) (hgap : n < 0xD800 ∨ 0xDFFF < n) :
    next position (0xE0 + n / 0x1000).toUInt8
        ((0x80 + n / 0x40 % 0x40).toUInt8 :: (0x80 + n % 0x40).toUInt8 :: rest)
      = .ok (Char.ofNat n, 2) := by
  have ha := toNat_toUInt8 (n := 0xE0 + n / 0x1000) (by omega)
  generalize (0xE0 + n / 0x1000).toUInt8 = a at ha ⊢
  have hone : ¬ a < 0x80 := by
    simp only [UInt8.lt_iff_toNat_lt, ha, UInt8.reduceToNat]
    omega
  have hbad : ¬ (a < 0xC2 || 0xF4 < a) = true := by
    simp only [UInt8.lt_iff_toNat_lt, ha, UInt8.reduceToNat, Bool.or_eq_true, decide_eq_true_eq]
    omega
  have htwo : ¬ a < 0xE0 := by
    simp only [UInt8.lt_iff_toNat_lt, ha, UInt8.reduceToNat]
    omega
  have hthree : a < 0xF0 := by
    simp only [UInt8.lt_iff_toNat_lt, ha, UInt8.reduceToNat]
    omega
  have hmiddle : n / 0x40 % 0x40 < 0x40 := Nat.mod_lt (n / 0x40) (by decide)
  have hbits : n % 0x40 < 0x40 := Nat.mod_lt n (by decide)
  have hsecond : isSecondOfThree a (0x80 + n / 0x40 % 0x40).toUInt8 = true := by
    rw [isSecondOfThree_iff, ha, toNat_toUInt8 (by omega)]
    refine ⟨isTail_toUInt8 hmiddle, ?_, ?_⟩ <;> omega
  unfold next
  rw [if_neg hone, if_neg hbad, if_neg htwo, if_pos hthree]
  show (if !isSecondOfThree _ _ then _ else if isTail _ then _ else _) = _
  rw [hsecond, if_neg (by decide), isTail_toUInt8 hbits, if_pos rfl, joinTail_toUInt8 _ hbits,
    joinTail_toUInt8 _ hmiddle, ha, Nat.add_sub_cancel_left]
  have hvalue : (n / 0x1000 * 0x40 + n / 0x40 % 0x40) * 0x40 + n % 0x40 = n := by omega
  rw [hvalue]

/-- A character of four bytes is read back. -/
theorem next_four (hlow : 0x10000 ≤ n) (h : n < 0x110000) :
    next position (0xF0 + n / 0x40000).toUInt8
        ((0x80 + n / 0x1000 % 0x40).toUInt8 :: (0x80 + n / 0x40 % 0x40).toUInt8
          :: (0x80 + n % 0x40).toUInt8 :: rest)
      = .ok (Char.ofNat n, 3) := by
  have ha := toNat_toUInt8 (n := 0xF0 + n / 0x40000) (by omega)
  generalize (0xF0 + n / 0x40000).toUInt8 = a at ha ⊢
  have hone : ¬ a < 0x80 := by
    simp only [UInt8.lt_iff_toNat_lt, ha, UInt8.reduceToNat]
    omega
  have hbad : ¬ (a < 0xC2 || 0xF4 < a) = true := by
    simp only [UInt8.lt_iff_toNat_lt, ha, UInt8.reduceToNat, Bool.or_eq_true, decide_eq_true_eq]
    omega
  have htwo : ¬ a < 0xE0 := by
    simp only [UInt8.lt_iff_toNat_lt, ha, UInt8.reduceToNat]
    omega
  have hthree : ¬ a < 0xF0 := by
    simp only [UInt8.lt_iff_toNat_lt, ha, UInt8.reduceToNat]
    omega
  have hupper : n / 0x1000 % 0x40 < 0x40 := Nat.mod_lt (n / 0x1000) (by decide)
  have hmiddle : n / 0x40 % 0x40 < 0x40 := Nat.mod_lt (n / 0x40) (by decide)
  have hbits : n % 0x40 < 0x40 := Nat.mod_lt n (by decide)
  have hsecond : isSecondOfFour a (0x80 + n / 0x1000 % 0x40).toUInt8 = true := by
    rw [isSecondOfFour_iff, ha, toNat_toUInt8 (by omega)]
    refine ⟨isTail_toUInt8 hupper, ?_, ?_⟩ <;> omega
  unfold next
  rw [if_neg hone, if_neg hbad, if_neg htwo, if_neg hthree]
  show (if !isSecondOfFour _ _ then _ else if !isTail _ then _ else if isTail _ then _ else _) = _
  rw [hsecond, if_neg (by decide), isTail_toUInt8 hmiddle, if_neg (by decide),
    isTail_toUInt8 hbits, if_pos rfl, joinTail_toUInt8 _ hbits, joinTail_toUInt8 _ hmiddle,
    joinTail_toUInt8 _ hupper, ha, Nat.add_sub_cancel_left]
  have hvalue : ((n / 0x40000 * 0x40 + n / 0x1000 % 0x40) * 0x40 + n / 0x40 % 0x40) * 0x40
      + n % 0x40 = n := by omega
  rw [hvalue]

end Sizes

/-! ## The four sizes back -/

section SizesBack

variable {a b c d : UInt8}

/-- The byte of the number of a byte is that byte. -/
theorem toUInt8_eq {n : Nat} (h : n = a.toNat) : n.toUInt8 = a := by
  rw [h]
  exact UInt8.ofNat_toNat

/-- The number of a character is that from which it was made, if this is the number of any. -/
theorem toNat_ofNat {n : Nat} (h : n.isValidChar) : (Char.ofNat n).toNat = n := by
  rw [Char.ofNat, dif_pos h]
  rfl

/-- A byte that stands for a character is written for it. -/
theorem encodeChar_one (h : a.toNat < 0x80) : encodeChar (Char.ofNat a.toNat) = [a] := by
  unfold encodeChar
  rw [toNat_ofNat (by unfold Nat.isValidChar; omega), if_pos h, toUInt8_eq rfl]

/-- Two bytes that stand for a character are written for it. -/
theorem encodeChar_two (hlow : 0xC2 ≤ a.toNat) (hhigh : a.toNat < 0xE0) (hb : isTail b = true) :
    encodeChar (Char.ofNat (joinTail (a.toNat - 0xC0) b)) = [a, b] := by
  rw [isTail_iff] at hb
  have hn : joinTail (a.toNat - 0xC0) b = (a.toNat - 0xC0) * 0x40 + (b.toNat - 0x80) := rfl
  generalize joinTail (a.toNat - 0xC0) b = n at hn ⊢
  unfold encodeChar
  rw [toNat_ofNat (by unfold Nat.isValidChar; omega), if_neg (by omega), if_pos (by omega),
    toUInt8_eq (a := a) (by omega), toUInt8_eq (a := b) (by omega)]

/-- Three bytes that stand for a character are written for it. -/
theorem encodeChar_three (hlow : 0xE0 ≤ a.toNat) (hhigh : a.toNat < 0xF0)
    (hb : isSecondOfThree a b = true) (hc : isTail c = true) :
    encodeChar (Char.ofNat (joinTail (joinTail (a.toNat - 0xE0) b) c)) = [a, b, c] := by
  rw [isSecondOfThree_iff, isTail_iff] at hb
  rw [isTail_iff] at hc
  have hn : joinTail (joinTail (a.toNat - 0xE0) b) c
      = ((a.toNat - 0xE0) * 0x40 + (b.toNat - 0x80)) * 0x40 + (c.toNat - 0x80) := rfl
  generalize joinTail (joinTail (a.toNat - 0xE0) b) c = n at hn ⊢
  unfold encodeChar
  rw [toNat_ofNat (by unfold Nat.isValidChar; omega), if_neg (by omega), if_neg (by omega),
    if_pos (by omega), toUInt8_eq (a := a) (by omega), toUInt8_eq (a := b) (by omega),
    toUInt8_eq (a := c) (by omega)]

/-- Four bytes that stand for a character are written for it. -/
theorem encodeChar_four (hlow : 0xF0 ≤ a.toNat) (hhigh : a.toNat ≤ 0xF4)
    (hb : isSecondOfFour a b = true) (hc : isTail c = true) (hd : isTail d = true) :
    encodeChar (Char.ofNat (joinTail (joinTail (joinTail (a.toNat - 0xF0) b) c) d))
      = [a, b, c, d] := by
  rw [isSecondOfFour_iff, isTail_iff] at hb
  rw [isTail_iff] at hc hd
  have hn : joinTail (joinTail (joinTail (a.toNat - 0xF0) b) c) d
      = (((a.toNat - 0xF0) * 0x40 + (b.toNat - 0x80)) * 0x40 + (c.toNat - 0x80)) * 0x40
        + (d.toNat - 0x80) := rfl
  generalize joinTail (joinTail (joinTail (a.toNat - 0xF0) b) c) d = n at hn ⊢
  unfold encodeChar
  rw [toNat_ofNat (by unfold Nat.isValidChar; omega), if_neg (by omega), if_neg (by omega),
    if_neg (by omega), toUInt8_eq (a := a) (by omega), toUInt8_eq (a := b) (by omega),
    toUInt8_eq (a := c) (by omega), toUInt8_eq (a := d) (by omega)]

end SizesBack

/-! ## Whole texts -/

/-- Every character is read back from its bytes. -/
theorem readsBack : NextChar.ReadsBack next encodeChar := by
  intro c
  have hvalid : c.toNat < 0xD800 ∨ 0xDFFF < c.toNat ∧ c.toNat < 0x110000 := c.valid
  have hchar : Char.ofNat c.toNat = c := Char.ofNat_toNat c
  rw [encodeChar]
  by_cases hone : c.toNat < 0x80
  · refine ⟨_, _, if_pos hone, ?_⟩
    intro position rest
    rw [List.nil_append, next_one position rest hone, hchar, List.length_nil]
  by_cases htwo : c.toNat < 0x800
  · refine ⟨_, _, by rw [if_neg hone, if_pos htwo], ?_⟩
    intro position rest
    have hread := next_two (n := c.toNat) position rest (by omega) htwo
    rw [hchar] at hread
    exact hread
  by_cases hthree : c.toNat < 0x10000
  · refine ⟨_, _, by rw [if_neg hone, if_neg htwo, if_pos hthree], ?_⟩
    intro position rest
    have hread := next_three (n := c.toNat) position rest (by omega) hthree (by omega)
    rw [hchar] at hread
    exact hread
  · refine ⟨_, _, by rw [if_neg hone, if_neg htwo, if_neg hthree], ?_⟩
    intro position rest
    have hread := next_four (n := c.toNat) position rest (by omega) (by omega)
    rw [hchar] at hread
    exact hread

/-- Every character is read from the bytes in which it is written. -/
theorem writesBack : NextChar.WritesBack next encodeChar := by
  intro position a rest char more h
  unfold next at h
  simp only [UInt8.lt_iff_toNat_lt, Bool.or_eq_true, decide_eq_true_eq, UInt8.reduceToNat] at h
  split at h
  · next hone =>
    obtain ⟨rfl, rfl⟩ := Prod.mk.inj (Except.ok.inj h)
    exact ⟨[], rest, rfl, rfl, encodeChar_one hone⟩
  split at h
  · exact absurd h (by simp)
  split at h
  · split at h
    · exact absurd h (by simp)
    · next b behind =>
      split at h
      · next hb =>
        obtain ⟨rfl, rfl⟩ := Prod.mk.inj (Except.ok.inj h)
        exact ⟨[b], behind, rfl, rfl, encodeChar_two (by omega) (by omega) hb⟩
      · exact absurd h (by simp)
  split at h
  · split at h
    · exact absurd h (by simp)
    · split at h <;> exact absurd h (by simp)
    · next b c behind =>
      split at h
      · exact absurd h (by simp)
      · next hb =>
        split at h
        · next hc =>
          obtain ⟨rfl, rfl⟩ := Prod.mk.inj (Except.ok.inj h)
          exact ⟨[b, c], behind, rfl, rfl,
            encodeChar_three (by omega) (by omega) (by simpa using hb) hc⟩
        · exact absurd h (by simp)
  · split at h
    · exact absurd h (by simp)
    · split at h <;> exact absurd h (by simp)
    · split at h
      · exact absurd h (by simp)
      · split at h <;> exact absurd h (by simp)
    · next b c d behind =>
      split at h
      · exact absurd h (by simp)
      · next hb =>
        split at h
        · exact absurd h (by simp)
        · next hc =>
          split at h
          · next hd =>
            obtain ⟨rfl, rfl⟩ := Prod.mk.inj (Except.ok.inj h)
            exact ⟨[b, c, d], behind, rfl, rfl, encodeChar_four (by omega) (by omega)
              (by simpa using hb) (by simpa using hc) hd⟩
          · exact absurd h (by simp)

/-- **A text that was written in UTF-8 is read back.** -/
theorem decode_encode (t : Text) : decode (encode t) = .ok t :=
  NextChar.decodeFrom_flatMap readsBack 0 t

/-- **The bytes from which a text was read in UTF-8 are those in which it is written.** -/
theorem encode_of_decode {bytes : Bytes} {t : Text} (h : decode bytes = .ok t) :
    encode t = bytes :=
  NextChar.flatMap_of_decode writesBack h

end Utf8

end RuleSweep
