/-
# Objects are read back

An object of fields whose values are read back is itself read back from its document, field by
field: every line of the document holds one field, and the blanks between the lines are skipped.
-/
import RuleSweep.Proofs.Json.Scalars
import RuleSweep.Proofs.Text.Cut

namespace RuleSweep

namespace Json

/-! ## One field -/

/-- Blanks in front of what begins with no blank are skipped. -/
theorem skipBlanks_append {blanks : Text} (h : ∀ c ∈ blanks, isBlank c = true) {c : Char}
    (hc : isBlank c = false) (rest : Text) : skipBlanks (blanks ++ c :: rest) = c :: rest := by
  rw [skipBlanks, List.dropWhile_append_of_pos h, List.dropWhile_cons_of_neg (by rw [hc]; decide)]

/-- A new line holds blanks only. -/
theorem isBlank_of_mem_newLine {depth : Nat} : ∀ c ∈ newLine depth, isBlank c = true := by
  intro c hc
  rw [newLine, List.mem_cons, List.mem_replicate] at hc
  rcases hc with rfl | ⟨-, rfl⟩
  · decide
  · decide

/-- Blanks, a comma and a closing brace end a number. -/
theorem endsNumber_cons {c : Char} (h : isBlank c = true ∨ c = ',' ∨ c = '}') (rest : Text) :
    EndsNumber (c :: rest) := by
  have hc : isDigit c = false ∧ c ≠ '.' ∧ c ≠ 'e' ∧ c ≠ 'E' := by
    rcases h with h | rfl | rfl
    · simp only [isBlank, Bool.or_eq_true, decide_eq_true_eq] at h
      rcases h with ((rfl | rfl) | rfl) | rfl
      all_goals decide
    · decide
    · decide
  intro d hd
  rw [List.head?_cons, Option.some.injEq] at hd
  rw [← hd]
  exact hc

/-- A name and a written value as a field. -/
def fieldText (repertoire : Repertoire) (name written : Text) : Text :=
  quoted repertoire name ++ ": ".toList ++ written

variable {repertoire : Repertoire} {name written rest : Text} {value : Value} {room : Nat}

/-- A field begins with the quote of its name. -/
theorem fieldText_append (repertoire : Repertoire) (name written rest : Text) :
    fieldText repertoire name written ++ rest
      = '"' :: (name.flatMap (quotedChar repertoire)
          ++ '"' :: ':' :: ' ' :: (written ++ rest)) := by
  simp [fieldText, quoted]

/-- The value of a field is read behind a blank. -/
theorem readValue_field (h : Writes written value) (limit : Nat) (hend : EndsNumber rest) :
    readValue (limit + 1) room (skipBlanks (' ' :: (written ++ rest))) = .ok (value, rest) := by
  have hskip : skipBlanks (' ' :: (written ++ rest)) = written ++ rest := h.skip rest
  rw [hskip, h.read limit room rest hend]

/-- The last field of an object is read back, and what follows the object is left. -/
theorem readFields_last (h : Writes written value) {blanks : Text}
    (hblanks : ∀ c ∈ blanks, isBlank c = true) (limit : Nat) :
    readFields (limit + 2) room
        (fieldText repertoire name written ++ (blanks ++ '}' :: rest))
      = .ok ([(name.map Char.toNat, value)], rest) := by
  have hend : EndsNumber (blanks ++ '}' :: rest) := by
    cases blanks with
    | nil => exact endsNumber_cons (.inr (.inr rfl)) rest
    | cons c blanks => exact endsNumber_cons (.inl (hblanks c List.mem_cons_self)) _
  have hcolon : ∀ t, skipBlanks (':' :: t) = ':' :: t := fun t => rfl
  rw [fieldText_append, readFields, readString_flatMap]
  simp only [hcolon, readValue_field h limit hend,
    skipBlanks_append hblanks (by decide : isBlank '}' = false) rest]

/-- A field is read back in front of the fields behind a comma. -/
theorem readFields_next (h : Writes written value) (limit : Nat) :
    readFields (limit + 2) room (fieldText repertoire name written ++ ',' :: rest)
      = (readFields (limit + 1) room (skipBlanks rest)).map fun (fields, rest) =>
          ((name.map Char.toNat, value) :: fields, rest) := by
  have hend : EndsNumber (',' :: rest) := endsNumber_cons (.inr (.inl rfl)) rest
  have hcolon : ∀ t, skipBlanks (':' :: t) = ':' :: t := fun t => rfl
  have hcomma : ∀ t, skipBlanks (',' :: t) = ',' :: t := fun t => rfl
  rw [fieldText_append, readFields, readString_flatMap]
  simp only [hcolon, readValue_field h limit hend, hcomma]

/-! ## All fields -/

/-- A field of an object in the document of the object. -/
theorem writtenField_eq (depth : Nat) (name : Text) (value : Value) :
    writtenField depth (name.map Char.toNat, value)
      = fieldText .ascii name (value.written depth) := by
  rw [writtenField, writtenString_map, fieldText]

/-- The fields of an object with names that are texts. -/
abbrev Fields := List (Text × Value)

/-- The fields as they are read, with the code points of their names. -/
def Fields.read (fields : Fields) : List (List Nat × Value) :=
  fields.map fun field => (field.1.map Char.toNat, field.2)

/-- The lines of the fields. -/
def Fields.lines (depth : Nat) (fields : Fields) : List Text :=
  fields.map fun field => fieldText .ascii field.1 (field.2.written depth)

/-- Every value is read back. -/
def Fields.AreRead (depth : Nat) (fields : Fields) : Prop :=
  ∀ field ∈ fields, Writes (field.2.written depth) field.2

/-- The fields of an object in the document of the object. -/
theorem writtenFields_read (depth : Nat) (fields : Fields) :
    writtenFields depth fields.read = fields.lines depth := by
  induction fields with
  | nil => rfl
  | cons field fields ih =>
    rw [Fields.read, List.map_cons, writtenFields, writtenField_eq]
    rw [Fields.read] at ih
    rw [ih]
    rfl

/-- The line of a single field. -/
theorem joinWith_lines_singleton (depth : Nat) (field : Text × Value) :
    Text.joinWith (',' :: newLine depth) (Fields.lines depth [field])
      = fieldText .ascii field.1 (field.2.written depth) := by
  unfold Text.joinWith Fields.lines
  rw [List.map_cons, List.map_nil, List.intercalate_singleton]

/-- The lines of fields, one field after the other. -/
theorem joinWith_lines_cons {depth : Nat} (field next : Text × Value) (fields : Fields) :
    Text.joinWith (',' :: newLine depth) (Fields.lines depth (field :: next :: fields)) ++ rest
      = fieldText .ascii field.1 (field.2.written depth) ++ ',' :: (newLine depth
          ++ (Text.joinWith (',' :: newLine depth) (Fields.lines depth (next :: fields))
            ++ rest)) := by
  unfold Text.joinWith Fields.lines
  rw [List.map_cons, List.map_cons, List.intercalate_cons_cons]
  simp only [List.append_assoc, List.cons_append]

/-- The lines of fields begin with the quote of the first name. -/
theorem joinWith_lines_head (depth : Nat) (field : Text × Value) (fields : Fields) (rest : Text) :
    ∃ tail, Text.joinWith (',' :: newLine depth) (Fields.lines depth (field :: fields)) ++ rest
      = '"' :: tail := by
  cases fields with
  | nil =>
    rw [joinWith_lines_singleton]
    exact ⟨_, fieldText_append _ _ _ _⟩
  | cons next fields =>
    rw [joinWith_lines_cons]
    exact ⟨_, fieldText_append _ _ _ _⟩

/-- Fields that stand on lines of their own are read back. -/
theorem readFields_lines {depth : Nat} {fields : Fields} (hne : fields ≠ [])
    (h : fields.AreRead depth) {limit : Nat} (hlimit : fields.length < limit) {blanks : Text}
    (hblanks : ∀ c ∈ blanks, isBlank c = true) :
    readFields limit room
        (Text.joinWith (',' :: newLine depth) (fields.lines depth) ++ (blanks ++ '}' :: rest))
      = .ok (fields.read, rest) := by
  induction fields generalizing limit with
  | nil => exact absurd rfl hne
  | cons field fields ih =>
    rw [Fields.AreRead, List.forall_mem_cons] at h
    rw [List.length_cons] at hlimit
    obtain ⟨limit, rfl⟩ : ∃ smaller, limit = smaller + 2 := ⟨limit - 2, by omega⟩
    cases fields with
    | nil =>
      rw [joinWith_lines_singleton, readFields_last h.1 hblanks]
      rfl
    | cons next fields =>
      rw [joinWith_lines_cons, readFields_next h.1]
      have hshort : (next :: fields).length < limit + 1 := by omega
      have hmore := ih (List.cons_ne_nil next fields) h.2 hshort
      obtain ⟨tail, htail⟩ := joinWith_lines_head depth next fields (blanks ++ '}' :: rest)
      rw [htail] at hmore ⊢
      rw [skipBlanks_append isBlank_of_mem_newLine (by decide), hmore]
      rfl

/-! ## Documents -/

/-- The document of an object that has fields. -/
theorem document_object {fields : Fields} (hne : fields ≠ []) :
    (Value.object fields.read).document
      = '{' :: (newLine 1 ++ (Text.joinWith (',' :: newLine 1) (fields.lines 1)
          ++ (newLine 0 ++ ['}']))) := by
  rw [Value.document, Value.written, writtenFields_read]
  cases fields with
  | nil => exact absurd rfl hne
  | cons field fields =>
    show block '{' '}' 0 (Fields.lines 1 (field :: fields)) = _
    unfold Fields.lines
    rw [List.map_cons, block]
    · simp only [List.cons_append, List.append_assoc]
    · simp

/-- Behind the opening brace of an object that has fields, the fields are read. -/
theorem readValue_opening {t tail : Text} (hskip : skipBlanks t = '"' :: tail) (limit : Nat) :
    readValue (limit + 1) (room + 1) ('{' :: t)
      = (readFields limit room ('"' :: tail)).map fun (fields, rest) =>
          (.object fields, rest) := by
  rw [readValue, hskip]
  split
  · next heq => exact absurd (List.cons_eq_cons.mp heq).1 (by decide)
  · rfl

/-- A document that is an object is read by the fields of the object, with nothing behind them. -/
theorem parse_opening {t tail : Text} {fields : List (List Nat × Value)}
    (hskip : skipBlanks t = '"' :: tail)
    (hfields : readFields (2 * t.length + 3) 989 ('"' :: tail) = .ok (fields, [])) :
    parse ('{' :: t) = .ok (.object fields) := by
  have hopening : skipBlanks ('{' :: t) = '{' :: t := rfl
  have hlimit : 2 * ('{' :: t).length + 2 = 2 * t.length + 3 + 1 := by
    rw [List.length_cons]
    omega
  rw [parse, hopening, hlimit, show maxDepth = 989 + 1 from rfl, readValue_opening hskip, hfields]
  rfl

/-- **An object is read back from its document.** -/
theorem parse_document_object {fields : Fields} (h : fields.AreRead 1) :
    parse (Value.object fields.read).document = .ok (.object fields.read) := by
  cases fields with
  | nil => rfl
  | cons field fields =>
    have hne : field :: fields ≠ [] := List.cons_ne_nil field fields
    obtain ⟨tail, htail⟩ := joinWith_lines_head 1 field fields (newLine 0 ++ ['}'])
    have hskip : skipBlanks (newLine 1 ++ '"' :: tail) = '"' :: tail :=
      skipBlanks_append isBlank_of_mem_newLine (by decide) tail
    have hlimit : (field :: fields).length < 2 * (newLine 1 ++ '"' :: tail).length + 3 := by
      have hlines := Text.length_le_joinWith ',' (newLine 1) (Fields.lines 1 (field :: fields))
      have hlength := congrArg List.length htail
      rw [Fields.lines, List.length_map] at hlines
      rw [Fields.lines] at hlength
      simp only [List.length_append, List.length_cons] at hlines hlength ⊢
      omega
    have hfields : readFields (2 * (newLine 1 ++ '"' :: tail).length + 3) 989
        (Text.joinWith (',' :: newLine 1) (Fields.lines 1 (field :: fields))
          ++ (newLine 0 ++ ['}'])) = .ok (Fields.read (field :: fields), []) :=
      readFields_lines hne h hlimit isBlank_of_mem_newLine
    rw [htail] at hfields
    rw [document_object hne, htail]
    exact parse_opening hskip hfields

end Json

end RuleSweep
