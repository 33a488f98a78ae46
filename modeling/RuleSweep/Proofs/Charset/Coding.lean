/-
# Reading what was written in any character set

Whatever a character set can write, it reads back (`Charset.decode_of_encode`); and what it has
read from anywhere, character by character, it can write (`Charset.covers_of_decode`).  Reading a
file also makes plain newlines, so that a text that was read holds no carriage return; a text
without one is left as it is (`Text.plainNewlines_eq_self_iff`) and therefore read back from the
file that it is written into (`Charset.read_of_encode`).
-/
import Mathlib.Data.List.TakeDrop
import Mathlib.Data.List.TakeWhile
import RuleSweep.Charset.Coding
import RuleSweep.Proofs.Charset.Utf16

namespace RuleSweep

/-! ## Where the characters come from -/

namespace NextChar

variable {next : NextChar}

/-- Every character of what was read stood in front of it or was read at some byte. -/
theorem mem_of_decodeOnto {skip position : Nat} {done : Text} {bytes : Bytes} {t : Text}
    (h : decodeOnto next skip position done bytes = .ok t) {c : Char} (hc : c ∈ t) :
    c ∈ done ∨ ∃ position b rest more, next position b rest = .ok (c, more) := by
  fun_induction decodeOnto next skip position done bytes with
  | case1 skip position done =>
    rw [← Except.ok.inj h, List.mem_reverse] at hc
    exact Or.inl hc
  | case2 position done skip b rest ih => exact ih h
  | case3 position done b rest e hnext => exact absurd h (by simp)
  | case4 position done b rest d more hnext ih =>
    rcases ih h with hdone | hread
    · rcases List.mem_cons.mp hdone with rfl | hdone
      · exact Or.inr ⟨position, b, rest, more, hnext⟩
      · exact Or.inl hdone
    · exact Or.inr hread

/-- Every character of what was read was read at some byte. -/
theorem exists_of_mem_decode {bytes : Bytes} {t : Text} (h : decode next bytes = .ok t) {c : Char}
    (hc : c ∈ t) : ∃ position b rest more, next position b rest = .ok (c, more) := by
  rcases mem_of_decodeOnto h hc with hdone | hread
  · exact absurd hdone List.not_mem_nil
  · exact hread

end NextChar

/-! ## Character sets of single bytes -/

namespace ByteTable

variable {table : ByteTable}

/-- The bytes and the characters of a table belong together: a byte that is written for a
character stands for it, and a character that a byte stands for has a byte. -/
structure Matches (table : ByteTable) : Prop where
  /-- What is written for a character stands for it. -/
  char : ∀ c b, table.byte? c = some b → table.char? b = some c
  /-- What a byte stands for can be written. -/
  byte : ∀ b c, table.char? b = some c → table.covers c = true

/-- The number of a byte is the number of its character. -/
theorem toNat_ofNat_byte (b : UInt8) : (Char.ofNat b.toNat).toNat = b.toNat :=
  Utf8.toNat_ofNat (Or.inl (Nat.lt_trans b.toNat_lt (by decide)))

/-- Bytes that stand for the code points of their numbers match them. -/
theorem matches_identity (name reason : String) {size : Nat} (h : size ≤ 0x100) :
    (identity name reason size).Matches where
  char := by
    intro c b hb
    simp only [identity, Option.ite_none_right_eq_some, Option.some.injEq] at hb ⊢
    rw [← hb.2, Utf8.toNat_toUInt8 (by omega), Char.ofNat_toNat]
    exact ⟨hb.1, rfl⟩
  byte := by
    intro b c hc
    simp only [identity, covers, Option.ite_none_right_eq_some, Option.some.injEq] at hc ⊢
    rw [← hc.2, toNat_ofNat_byte, if_pos hc.1]
    rfl

/-- The pairs of the Windows code page: bytes from `80` to `9F`, and characters above `FF`, each
of them once. -/
theorem windowsPairs_find? : ∀ pair ∈ windowsPairs,
    (0x80 ≤ pair.1 ∧ pair.1 < 0xA0 ∧ 0x100 ≤ pair.2 ∧ pair.2 < 0xD800) ∧
    windowsPairs.find? (·.1 = pair.1) = some pair ∧
    windowsPairs.find? (·.2 = pair.2) = some pair := by
  decide

/-- The character of a byte in the Windows code page. -/
theorem char?_windows1252 (b : UInt8) :
    windows1252.char? b
      = if b.toNat < 0x80 || 0xA0 ≤ b.toNat then some (Char.ofNat b.toNat)
        else (windowsPairs.find? (·.1 = b.toNat)).map fun pair => Char.ofNat pair.2 := rfl

/-- The byte of a character in the Windows code page. -/
theorem byte?_windows1252 (c : Char) :
    windows1252.byte? c
      = if c.toNat < 0x80 || 0xA0 ≤ c.toNat && c.toNat < 0x100 then some c.toNat.toUInt8
        else (windowsPairs.find? (·.2 = c.toNat)).map fun pair => pair.1.toUInt8 := rfl

/-- The bytes of the Windows code page match their characters. -/
theorem matches_windows1252 : windows1252.Matches where
  char := by
    intro c b hb
    rw [byte?_windows1252] at hb
    rw [char?_windows1252]
    split at hb
    · next hplain =>
      simp only [Bool.or_eq_true, Bool.and_eq_true, decide_eq_true_eq] at hplain
      have hnumber : b.toNat = c.toNat := by
        rw [← Option.some.inj hb]
        exact Utf8.toNat_toUInt8 (by omega)
      rw [hnumber, if_pos, Char.ofNat_toNat]
      simp only [Bool.or_eq_true, decide_eq_true_eq]
      omega
    · obtain ⟨pair, hfind, rfl⟩ := Option.map_eq_some_iff.mp hb
      obtain ⟨⟨hlow, hhigh, -, -⟩, hfirst, -⟩ :=
        windowsPairs_find? pair (List.mem_of_find?_eq_some hfind)
      have hsecond : pair.2 = c.toNat := by simpa using List.find?_some hfind
      have hnumber : pair.1.toUInt8.toNat = pair.1 := Utf8.toNat_toUInt8 (by omega)
      rw [hnumber, if_neg, hfirst, Option.map_some, hsecond, Char.ofNat_toNat]
      simp only [Bool.or_eq_true, decide_eq_true_eq]
      omega
  byte := by
    intro b c hc
    have hbyte := b.toNat_lt
    rw [char?_windows1252] at hc
    rw [covers, byte?_windows1252]
    split at hc
    · next hplain =>
      simp only [Bool.or_eq_true, decide_eq_true_eq] at hplain
      have hnumber : c.toNat = b.toNat := by
        rw [← Option.some.inj hc]
        exact toNat_ofNat_byte b
      rw [hnumber, if_pos]
      · rfl
      · simp only [Bool.or_eq_true, Bool.and_eq_true, decide_eq_true_eq]
        omega
    · obtain ⟨pair, hfind, rfl⟩ := Option.map_eq_some_iff.mp hc
      obtain ⟨⟨-, -, hlow, hhigh⟩, -, hsecond⟩ :=
        windowsPairs_find? pair (List.mem_of_find?_eq_some hfind)
      rw [Utf8.toNat_ofNat (Or.inl hhigh), if_neg, hsecond]
      · rfl
      · simp only [Bool.or_eq_true, Bool.and_eq_true, decide_eq_true_eq]
        omega

/-- A text is written exactly if all its characters have a byte, and then with these bytes. -/
theorem encode_eq_ok_iff {t : Text} {bytes : Bytes} :
    table.encode t = .ok bytes ↔
      (∀ c ∈ t, table.covers c = true) ∧ t.filterMap table.byte? = bytes := by
  rw [encode, List.span_eq_takeWhile_dropWhile]
  cases hrest : t.dropWhile table.covers with
  | nil =>
    rw [List.dropWhile_eq_nil_iff] at hrest
    simp only [Except.ok.injEq]
    exact ⟨fun h => ⟨hrest, h⟩, fun h => h.2⟩
  | cons c rest =>
    have hne : t.dropWhile table.covers ≠ [] := by simp [hrest]
    rw [Ne, List.dropWhile_eq_nil_iff] at hne
    constructor
    · exact fun h => absurd h (by simp)
    · exact fun h => absurd h.1 hne

/-- The bytes of a text are read as the text. -/
theorem decodeOnto_filterMap (h : table.Matches) {t : Text}
    (ht : ∀ c ∈ t, table.covers c = true) (position : Nat) (done : Text) :
    NextChar.decodeOnto table.next 0 position done (t.filterMap table.byte?)
      = .ok (done.reverse ++ t) := by
  induction t generalizing position done with
  | nil => rw [List.filterMap_nil, NextChar.decodeOnto, List.append_nil]
  | cons c t ih =>
    rw [List.forall_mem_cons, covers, Option.isSome_iff_exists] at ht
    obtain ⟨⟨b, hb⟩, ht⟩ := ht
    have hnext : ∀ rest, table.next position b rest = .ok (c, 0) := by
      intro rest
      rw [next, h.char c b hb]
    rw [List.filterMap_cons_some hb, NextChar.decodeOnto, hnext]
    show NextChar.decodeOnto table.next 0 (position + 1) (c :: done) _ = _
    rw [ih ht, List.reverse_cons, List.append_assoc, List.singleton_append]

/-- What was written by a table is read back by it. -/
theorem decode_of_encode (h : table.Matches) {t : Text} {bytes : Bytes}
    (hencode : table.encode t = .ok bytes) : table.decode bytes = .ok t := by
  obtain ⟨ht, rfl⟩ := encode_eq_ok_iff.mp hencode
  exact decodeOnto_filterMap h ht 0 []

/-- What was read by a table can be written by it. -/
theorem covers_of_decode (h : table.Matches) {t : Text} {bytes : Bytes}
    (hdecode : table.decode bytes = .ok t) : ∀ c ∈ t, table.covers c = true := by
  intro c hc
  obtain ⟨position, b, rest, more, hnext⟩ := NextChar.exists_of_mem_decode hdecode hc
  rw [next] at hnext
  cases hchar : table.char? b with
  | none => simp [hchar] at hnext
  | some d =>
    simp only [hchar, Except.ok.injEq, Prod.mk.injEq] at hnext
    rw [← hnext.1]
    exact h.byte b d hchar

end ByteTable

/-! ## Byte-order marks -/

/-- A byte-order mark is passed over, and nothing else. -/
theorem Utf8.decodeMarked_mark (bytes : Bytes) : decodeMarked (mark ++ bytes) = decode bytes := by
  have hlength : ¬ (mark ++ bytes).length < mark.length := by
    rw [List.length_append]
    omega
  have hmark : mark.isPrefixOf (mark ++ bytes) = true :=
    List.isPrefixOf_iff_prefix.mpr (List.prefix_append mark bytes)
  rw [decodeMarked, decide_eq_false hlength, Bool.false_and, if_neg Bool.false_ne_true,
    if_pos hmark, List.drop_left]

/-! ## All character sets -/

namespace Charset

/-- The table of a character set of single bytes. -/
def table? : Charset → Option ByteTable
  | .latin1 => some .latin1
  | .ascii => some .ascii
  | .windows1252 => some .windows1252
  | _ => none

/-- A character set can write a character. -/
def covers (charset : Charset) (c : Char) : Bool :=
  (charset.table?.map fun table => table.covers c).getD true

/-- The tables of character sets match. -/
theorem matches_of_table? {charset : Charset} {table : ByteTable}
    (h : charset.table? = some table) : table.Matches := by
  cases charset with
  | latin1 =>
    rw [← Option.some.inj h]
    exact ByteTable.matches_identity _ _ (by decide)
  | ascii =>
    rw [← Option.some.inj h]
    exact ByteTable.matches_identity _ _ (by decide)
  | windows1252 =>
    rw [← Option.some.inj h]
    exact ByteTable.matches_windows1252
  | _ => exact absurd h (by simp [table?])

variable {charset : Charset} {t : Text} {bytes : Bytes}

/-- A character set with a table writes by it. -/
theorem encode_of_table? {table : ByteTable} (h : charset.table? = some table) (t : Text) :
    charset.encode t = table.encode t := by
  cases charset with
  | latin1 => rw [← Option.some.inj h, encode]
  | ascii => rw [← Option.some.inj h, encode]
  | windows1252 => rw [← Option.some.inj h, encode]
  | _ => exact absurd h (by simp [table?])

/-- A character set with a table reads by it. -/
theorem decode_of_table? {table : ByteTable} (h : charset.table? = some table) (bytes : Bytes) :
    charset.decode bytes = (table.decode bytes).mapError .decode := by
  cases charset with
  | latin1 => rw [← Option.some.inj h, decode]
  | ascii => rw [← Option.some.inj h, decode]
  | windows1252 => rw [← Option.some.inj h, decode]
  | _ => exact absurd h (by simp [table?])

/-- Every character set can write the newline. -/
theorem covers_newline (charset : Charset) : charset.covers '\n' = true := by
  cases charset <;> decide

/-- **A text is written exactly if all its characters can be.** -/
theorem exists_encode_iff :
    (∃ bytes, charset.encode t = .ok bytes) ↔ ∀ c ∈ t, charset.covers c = true := by
  cases htable : charset.table? with
  | some table =>
    simp only [encode_of_table? htable, ByteTable.encode_eq_ok_iff, covers, htable,
      Option.map_some, Option.getD_some, exists_eq_right']
  | none =>
    have hencode : ∃ bytes, charset.encode t = .ok bytes := by
      cases charset with
      | latin1 => exact absurd htable (by simp [table?])
      | ascii => exact absurd htable (by simp [table?])
      | windows1252 => exact absurd htable (by simp [table?])
      | _ => exact ⟨_, rfl⟩
    simp only [hencode, covers, htable, Option.map_none, Option.getD_none, implies_true]

/-- **What was written in a character set is read back in it.** -/
theorem decode_of_encode (h : charset.encode t = .ok bytes) : charset.decode bytes = .ok t := by
  cases htable : charset.table? with
  | some table =>
    rw [encode_of_table? htable] at h
    rw [decode_of_table? htable, ByteTable.decode_of_encode (matches_of_table? htable) h]
    rfl
  | none =>
    cases charset with
    | latin1 => exact absurd htable (by simp [table?])
    | ascii => exact absurd htable (by simp [table?])
    | windows1252 => exact absurd htable (by simp [table?])
    | utf8 =>
      rw [← Except.ok.inj h, decode, Utf8.decode_encode]
      rfl
    | utf8Marked =>
      rw [← Except.ok.inj h, decode, Utf8.decodeMarked_mark, Utf8.decode_encode]
      rfl
    | utf16 =>
      rw [← Except.ok.inj h, decode, decodeUtf16, Utf16.encodeMarked, Utf16.markedOrder?_mark]
      show (Utf16.decodeFrom .little 2 (Utf16.encode .little t)).mapError _ = _
      rw [Utf16.decodeFrom_encode]
      rfl
    | utf16Little =>
      rw [← Except.ok.inj h, decode, Utf16.decode, Utf16.decodeFrom_encode]
      rfl
    | utf16Big =>
      rw [← Except.ok.inj h, decode, Utf16.decode, Utf16.decodeFrom_encode]
      rfl

/-- **What was read in a character set can be written in it.** -/
theorem covers_of_decode (h : charset.decode bytes = .ok t) :
    ∀ c ∈ t, charset.covers c = true := by
  intro c hc
  cases htable : charset.table? with
  | some table =>
    rw [decode_of_table? htable] at h
    cases hdecode : table.decode bytes with
    | error e =>
      rw [hdecode] at h
      exact absurd h (by simp [Except.mapError])
    | ok found =>
      rw [hdecode, Except.mapError, Except.ok.injEq] at h
      rw [h] at hdecode
      rw [covers, htable, Option.map_some, Option.getD_some]
      exact ByteTable.covers_of_decode (matches_of_table? htable) hdecode c hc
  | none => rw [covers, htable, Option.map_none, Option.getD_none]

end Charset

/-! ## Plain newlines -/

namespace Text

/-- What has been done stays in front. -/
theorem plainOnto_eq (done : Text) (afterReturn : Bool) (t : Text) :
    plainOnto done afterReturn t = done.reverse ++ plainOnto [] afterReturn t := by
  induction t generalizing done afterReturn with
  | nil => simp [plainOnto]
  | cons c t ih =>
    rw [plainOnto, plainOnto]
    split
    · rw [ih, ih ['\n'], List.reverse_cons, List.append_assoc]
      rfl
    · split
      · exact ih done false
      · rw [ih, ih [c], List.reverse_cons, List.append_assoc]
        rfl

/-- With plain newlines every character is one of the text, but no carriage return, or a
newline. -/
theorem mem_of_mem_plainOnto {afterReturn : Bool} {t : Text} {c : Char}
    (h : c ∈ plainOnto [] afterReturn t) : c ≠ '\r' ∧ (c ∈ t ∨ c = '\n') := by
  induction t generalizing afterReturn with
  | nil => exact absurd h List.not_mem_nil
  | cons d t ih =>
    have htail : c ∈ plainOnto [] true t ∨ c ∈ plainOnto [] false t →
        c ≠ '\r' ∧ (c ∈ d :: t ∨ c = '\n') := by
      rintro (htail | htail)
      · obtain ⟨hreturn, hmem⟩ := ih htail
        exact ⟨hreturn, hmem.imp_left (List.mem_cons_of_mem d)⟩
      · obtain ⟨hreturn, hmem⟩ := ih htail
        exact ⟨hreturn, hmem.imp_left (List.mem_cons_of_mem d)⟩
    rw [plainOnto] at h
    split at h
    · rw [plainOnto_eq] at h
      rcases List.mem_append.mp h with hnewline | hrest
      · rw [List.reverse_singleton, List.mem_singleton] at hnewline
        rw [hnewline]
        exact ⟨by decide, Or.inr rfl⟩
      · exact htail (Or.inl hrest)
    · next hd =>
      split at h
      · exact htail (Or.inr h)
      · rw [plainOnto_eq] at h
        rcases List.mem_append.mp h with hsame | hrest
        · rw [List.reverse_singleton, List.mem_singleton] at hsame
          rw [hsame]
          exact ⟨hd, Or.inl List.mem_cons_self⟩
        · exact htail (Or.inr hrest)

/-- Without a carriage return nothing is changed. -/
theorem plainOnto_of_notMem {t : Text} (h : '\r' ∉ t) : plainOnto [] false t = t := by
  induction t with
  | nil => rfl
  | cons c t ih =>
    rw [List.mem_cons, not_or] at h
    rw [plainOnto, if_neg (Ne.symm h.1), Bool.and_false, if_neg Bool.false_ne_true, plainOnto_eq,
      ih h.2]
    rfl

/-- A text with plain newlines holds no carriage return. -/
theorem return_notMem_plainNewlines (t : Text) : '\r' ∉ t.plainNewlines :=
  fun h => (mem_of_mem_plainOnto h).1 rfl

/-- **Making plain newlines changes a text exactly if it holds a carriage return.** -/
theorem plainNewlines_eq_self_iff {t : Text} : t.plainNewlines = t ↔ '\r' ∉ t := by
  constructor
  · intro h
    rw [← h]
    exact return_notMem_plainNewlines t
  · exact plainOnto_of_notMem

end Text

/-! ## Reading files -/

namespace Charset

variable {charset : Charset} {t : Text} {bytes : Bytes}

/-- **A text that was read** holds no carriage return, and can be written. -/
theorem of_read (h : charset.read bytes = .ok t) :
    '\r' ∉ t ∧ ∀ c ∈ t, charset.covers c = true := by
  rw [read] at h
  cases hdecode : charset.decode bytes with
  | error e =>
    rw [hdecode] at h
    exact absurd h (by simp [Except.map])
  | ok found =>
    rw [hdecode, Except.map, Except.ok.injEq] at h
    subst h
    refine ⟨Text.return_notMem_plainNewlines found, ?_⟩
    intro c hc
    rcases (Text.mem_of_mem_plainOnto hc).2 with hfound | rfl
    · exact covers_of_decode hdecode c hfound
    · exact covers_newline charset

/-- **A text without carriage returns is read back from the file that it is written into.** -/
theorem read_of_encode (ht : '\r' ∉ t) (h : charset.encode t = .ok bytes) :
    charset.read bytes = .ok t := by
  rw [read, decode_of_encode h, Except.map, Text.plainNewlines_eq_self_iff.mpr ht]

end Charset

end RuleSweep
