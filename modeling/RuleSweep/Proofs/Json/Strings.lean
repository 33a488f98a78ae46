/-
# JSON strings are read back

Whatever characters a text holds, and whichever of them are written by their numbers, reading
the string that was written gives the text back and stops right behind the closing quote.  The
string is first read as units of sixteen bits; since no character is a surrogate, the only pairs
among them are those that were written for one character.
-/
import RuleSweep.Json.Layout
import RuleSweep.Proofs.Text.Units

namespace RuleSweep

namespace Json

/-! ## Units -/

/-- Units in front of those that have been read. -/
def ahead (units : List Nat) (read : Option (List Nat × Text)) : Option (List Nat × Text) :=
  read.map fun (more, rest) => (units ++ more, rest)

/-- Units may be put in front one after the other. -/
theorem ahead_ahead (front units : List Nat) (read : Option (List Nat × Text)) :
    ahead front (ahead units read) = ahead (front ++ units) read := by
  cases read with
  | none => rfl
  | some read => simp [ahead]

/-- The value of a hexadecimal digit. -/
theorem hexValue?_digitChar {k : Nat} (h : k < 16) : hexValue? (Nat.digitChar k) = some k := by
  have hdigits : ∀ k < 16, hexValue? (Nat.digitChar k) = some k := by decide
  exact hdigits k h

/-- A unit that is written by its number is read back. -/
theorem readUnits_escapeUnit {unit : Nat} (h : unit < 0x10000) (rest : Text) :
    readUnits (escapeUnit unit ++ rest) = ahead [unit] (readUnits rest) := by
  have hwritten : escapeUnit unit ++ rest
      = '\\' :: 'u' :: Nat.digitChar (unit / 16 / 16 / 16 % 16)
        :: Nat.digitChar (unit / 16 / 16 % 16) :: Nat.digitChar (unit / 16 % 16)
        :: Nat.digitChar (unit % 16) :: rest := rfl
  have hunit : unit? (Nat.digitChar (unit / 16 / 16 / 16 % 16))
      (Nat.digitChar (unit / 16 / 16 % 16)) (Nat.digitChar (unit / 16 % 16))
      (Nat.digitChar (unit % 16)) = some unit := by
    have hdigit : ∀ n : Nat, hexValue? (Nat.digitChar (n % 16)) = some (n % 16) :=
      fun n => hexValue?_digitChar (Nat.mod_lt n (by decide))
    simp only [unit?, hdigit, Option.pure_def, Option.bind_eq_bind, Option.bind_some,
      Option.some.injEq]
    omega
  rw [hwritten, readUnits, hunit]
  cases readUnits rest with
  | none => rfl
  | some read => rfl

/-- Units that are written by their numbers are read back. -/
theorem readUnits_flatMap_escapeUnit {units : List Nat} (h : ∀ unit ∈ units, unit < 0x10000)
    (rest : Text) :
    readUnits (units.flatMap escapeUnit ++ rest) = ahead units (readUnits rest) := by
  induction units with
  | nil =>
    rw [List.flatMap_nil, List.nil_append, ahead]
    simp
  | cons unit units ih =>
    rw [List.forall_mem_cons] at h
    rw [List.flatMap_cons, List.append_assoc, readUnits_escapeUnit h.1, ih h.2, ahead_ahead,
      List.singleton_append]

/-- A character that is written by itself is read back, if it is no quote, no backslash and no
control. -/
theorem readUnits_plain {c : Char} (hquote : c ≠ '"') (hback : c ≠ '\\') (h : ¬ c.toNat < 0x20)
    (rest : Text) : readUnits (c :: rest) = ahead [c.toNat] (readUnits rest) := by
  rw [readUnits]
  · rw [if_neg h]
    rfl
  all_goals simp [hquote, hback]

/-- A character that is written with a backslash and a letter is read back. -/
theorem readUnits_escaped {c : Char} {unit : Nat} (hc : escaped? c = some unit) (rest : Text) :
    readUnits ('\\' :: c :: rest) = ahead [unit] (readUnits rest) := by
  have hu : c ≠ 'u' := by
    rintro rfl
    rw [escaped?.eq_def] at hc
    exact absurd hc (by simp)
  rw [readUnits]
  · rw [hc]
    cases readUnits rest with
    | none => rfl
    | some read => rfl
  · simp [hu]

/-! ## Characters -/

/-- A character that is written by itself or with a backslash and a letter is a single unit; one
that is written by its number may be two. -/
def unitsOf (repertoire : Repertoire) (c : Char) : List Nat :=
  if repertoire = .ascii ∧ 0x7F ≤ c.toNat then Text.units c else [c.toNat]

/-- **Every character is read back as its units.** -/
theorem readUnits_quotedChar (repertoire : Repertoire) (c : Char) (rest : Text) :
    readUnits (quotedChar repertoire c ++ rest)
      = ahead (unitsOf repertoire c) (readUnits rest) := by
  -- a character with an escape of its own lies below the ones that are written by their numbers
  have hsingle : c.toNat < 0x7F → unitsOf repertoire c = [c.toNat] := by
    intro h
    rw [unitsOf, if_neg]
    omega
  have hletter : ∀ letter : Char, c.toNat < 0x7F → escaped? letter = some c.toNat →
      readUnits ('\\' :: letter :: rest) = ahead (unitsOf repertoire c) (readUnits rest) := by
    intro letter h hescaped
    rw [hsingle h, readUnits_escaped hescaped]
  unfold quotedChar
  split
  · next h => exact hletter '"' (by rw [h]; decide) (by rw [h]; decide)
  next hquote =>
  split
  · next h => exact hletter '\\' (by rw [h]; decide) (by rw [h]; decide)
  next hback =>
  split
  · next h => exact hletter 'n' (by rw [h]; decide) (by rw [h]; decide)
  split
  · next h => exact hletter 'r' (by rw [h]; decide) (by rw [h]; decide)
  split
  · next h => exact hletter 't' (by rw [h]; decide) (by rw [h]; decide)
  split
  · next h => exact hletter 'b' (by rw [h]; decide) (by rw [h]; decide)
  split
  · next h => exact hletter 'f' (by rw [h]; decide) (by rw [h]; decide)
  split
  · next h => rw [hsingle (by omega), readUnits_escapeUnit (by omega)]
  next hcontrol =>
  split
  · next h =>
    rw [unitsOf, if_pos h]
    exact readUnits_flatMap_escapeUnit (fun unit hunit => Text.lt_of_mem_units hunit) rest
  · next h =>
    rw [unitsOf, if_neg h]
    exact readUnits_plain hquote hback hcontrol rest

/-- The units of a character are joined to its code point again. -/
theorem joinPairs_unitsOf (repertoire : Repertoire) (c : Char) (rest : List Nat) :
    joinPairs (unitsOf repertoire c ++ rest) = c.toNat :: joinPairs rest := by
  have hsingle : joinPairs ([c.toNat] ++ rest) = c.toNat :: joinPairs rest := by
    cases rest with
    | nil => rfl
    | cons next rest =>
      rw [List.singleton_append, joinPairs, isHighSurrogate_toNat, Bool.false_and,
        if_neg Bool.false_ne_true]
  unfold unitsOf
  split
  · obtain ⟨-, hunits⟩ | ⟨high, low, hunits, hhigh, hlow, hjoin⟩ := Text.units_cases c
    · rw [hunits]
      exact hsingle
    · rw [hunits, List.cons_append, List.singleton_append, joinPairs, hhigh, hlow,
        Bool.and_self, if_pos rfl, hjoin]
  · exact hsingle

/-! ## Whole strings -/

/-- The units of a text up to the closing quote. -/
theorem readUnits_flatMap (repertoire : Repertoire) (t rest : Text) :
    readUnits (t.flatMap (quotedChar repertoire) ++ '"' :: rest)
      = some (t.flatMap (unitsOf repertoire), rest) := by
  induction t with
  | nil => rw [List.flatMap_nil, List.nil_append, readUnits, List.flatMap_nil]
  | cons c t ih =>
    rw [List.flatMap_cons, List.append_assoc, readUnits_quotedChar, ih, List.flatMap_cons]
    rfl

/-- The units of a text are joined to its code points again. -/
theorem joinPairs_flatMap (repertoire : Repertoire) (t : Text) :
    joinPairs (t.flatMap (unitsOf repertoire)) = t.map Char.toNat := by
  induction t with
  | nil => rfl
  | cons c t ih => rw [List.flatMap_cons, joinPairs_unitsOf, ih, List.map_cons]

/-- **A string that was written is read back, and what follows it is left.** -/
theorem readString_flatMap (repertoire : Repertoire) (t rest : Text) :
    readString (t.flatMap (quotedChar repertoire) ++ '"' :: rest)
      = some (t.map Char.toNat, rest) := by
  rw [readString, readUnits_flatMap, Option.map_some]
  show some (joinPairs (t.flatMap (unitsOf repertoire)), rest) = some (t.map Char.toNat, rest)
  rw [joinPairs_flatMap]

/-- The string of a text's code points is written as the text in ASCII characters. -/
theorem writtenString_map (t : Text) : writtenString (t.map Char.toNat) = quoted .ascii t := by
  have hchar : ∀ c : Char, writtenCodePoint c.toNat = quotedChar .ascii c := by
    intro c
    rw [writtenCodePoint, isSurrogate_toNat, if_neg Bool.false_ne_true, Char.ofNat_toNat]
  rw [writtenString, quoted, List.flatMap_map]
  simp only [hchar]

end Json

end RuleSweep
