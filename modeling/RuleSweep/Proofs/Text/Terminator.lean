/-
# The terminator of a text

There are two readings of the terminator that a text ends in.  The one walks through the text
until nothing but a terminator is left (`Text.withoutTerminator`); the other tests what the text
ends in (`Text.terminator`).  Both cut the text at the leftmost place behind which there is
nothing but a terminator (`Text.Parts`), and there is one such cut only (`Text.Parts.unique`).  So
what the one takes away is what the other sees, on whatever the text ends, and the two put
together are the text: `Text.parts_iff`.

Of several newlines at the end only the last one is taken away.  A line holds no other, so
without its terminator it holds none.
-/
import RuleSweep.Proofs.Text.Lines

namespace RuleSweep

namespace Text

/-- A terminator is a newline, with a carriage return in front of it or without one. -/
inductive IsTerminator : Text → Prop
  /-- A newline alone. -/
  | newline : IsTerminator ['\n']
  /-- A carriage return with a newline. -/
  | returned : IsTerminator ['\r', '\n']

/-- There are two terminators. -/
theorem isTerminator_iff {t : Text} : IsTerminator t ↔ t = ['\r', '\n'] ∨ t = ['\n'] := by
  constructor
  · rintro (_ | _)
    · exact .inr rfl
    · exact .inl rfl
  · rintro (rfl | rfl)
    · exact .returned
    · exact .newline

/-- The two parts of a text: the terminator that it ends in, if it does, and the content in front
of it.  They are what a search for a terminator at the end of the text makes of it. -/
structure Parts (t content ending : Text) : Prop where
  /-- Put together they are the text. -/
  whole : content ++ ending = t
  /-- The ending is a terminator, if it holds anything. -/
  isTerminator : ending = [] ∨ IsTerminator ending
  /-- No terminator that the text ends in begins further to the left. -/
  leftmost : ∀ earlier later, earlier ++ later = t → IsTerminator later →
    content.length ≤ earlier.length

namespace Parts

variable {t content content' ending ending' : Text}

/-- The search can only stop at one place: neither content is longer than the other. -/
theorem length_le (h : Parts t content ending) (h' : Parts t content' ending') :
    content.length ≤ content'.length := by
  rcases h'.isTerminator with hnone | hterminator
  · -- the other search reached the end of the text
    have hwhole := h'.whole
    rw [hnone, List.append_nil] at hwhole
    rw [hwhole, ← h.whole, List.length_append]
    exact Nat.le_add_right _ _
  · exact h.leftmost content' ending' h'.whole hterminator

/-- **A text has its two parts in one way only.** -/
theorem unique (h : Parts t content ending) (h' : Parts t content' ending') :
    content = content' ∧ ending = ending' := by
  have hlength : content.length = content'.length :=
    Nat.le_antisymm (h.length_le h') (h'.length_le h)
  exact List.append_inj (h.whole.trans h'.whole.symm) hlength

end Parts

/-! ## The two readings -/

/-- **Walking through a text cuts it into its two parts.** -/
theorem exists_parts_withoutTerminator (t : Text) :
    ∃ ending, Parts t t.withoutTerminator ending := by
  induction t with
  | nil => exact ⟨[], rfl, .inl rfl, fun _ _ _ _ => Nat.zero_le _⟩
  | cons c rest ih =>
    rw [withoutTerminator]
    split
    · next hhere =>
      exact ⟨c :: rest, rfl, .inr (isTerminator_iff.mpr hhere), fun _ _ _ _ => Nat.zero_le _⟩
    · next hhere =>
      obtain ⟨ending, hrest⟩ := ih
      refine ⟨ending, ?_, hrest.isTerminator, ?_⟩
      · rw [List.cons_append, hrest.whole]
      · intro earlier later heq hlater
        cases earlier with
        | nil =>
          -- the whole of what is left would be the terminator
          rw [List.nil_append] at heq
          rw [heq] at hlater
          exact absurd (isTerminator_iff.mp hlater) hhere
        | cons d earlier =>
          rw [List.cons_append, List.cons.injEq] at heq
          exact Nat.succ_le_succ (hrest.leftmost earlier later heq.2 hlater)

/-- **Testing what a text ends in gives its two parts.** -/
theorem exists_parts_terminator (t : Text) : ∃ content, Parts t content t.terminator := by
  simp only [terminator, List.isSuffixOf_iff_suffix]
  by_cases hreturn : ['\r', '\n'] <:+ t
  · rw [if_pos hreturn]
    obtain ⟨content, hcontent⟩ := hreturn
    refine ⟨content, hcontent, .inr .returned, ?_⟩
    intro earlier later heq hlater
    -- there is no longer terminator than this one
    have hlength := congrArg List.length (heq.trans hcontent.symm)
    cases hlater <;> simp only [List.length_append, List.length_cons] at hlength <;> omega
  · rw [if_neg hreturn]
    by_cases hnewline : ['\n'] <:+ t
    · rw [if_pos hnewline]
      obtain ⟨content, hcontent⟩ := hnewline
      refine ⟨content, hcontent, .inr .newline, ?_⟩
      intro earlier later heq hlater
      cases hlater with
      | newline =>
        have hsame : content = earlier := List.append_inj_left' (hcontent.trans heq.symm) rfl
        exact Nat.le_of_eq (congrArg List.length hsame)
      | returned => exact absurd ⟨earlier, heq⟩ hreturn
    · rw [if_neg hnewline]
      refine ⟨t, List.append_nil t, .inl rfl, ?_⟩
      intro earlier later heq hlater
      cases hlater with
      | newline => exact absurd ⟨earlier, heq⟩ hnewline
      | returned => exact absurd ⟨earlier, heq⟩ hreturn

/-- **The two readings give the two parts of a text.** -/
theorem parts_withoutTerminator (t : Text) : Parts t t.withoutTerminator t.terminator := by
  obtain ⟨ending, hwalked⟩ := exists_parts_withoutTerminator t
  obtain ⟨content, htested⟩ := exists_parts_terminator t
  rwa [(hwalked.unique htested).2] at hwalked

/-- The two parts of a text are those that the two readings give. -/
theorem parts_iff {t content ending : Text} :
    Parts t content ending ↔ content = t.withoutTerminator ∧ ending = t.terminator := by
  constructor
  · exact fun h => h.unique (parts_withoutTerminator t)
  · rintro ⟨rfl, rfl⟩
    exact parts_withoutTerminator t

/-- **A text is what its terminator is taken from, and the terminator.** -/
theorem withoutTerminator_append_terminator (t : Text) :
    t.withoutTerminator ++ t.terminator = t :=
  (parts_withoutTerminator t).whole

/-- A text without its terminator is a beginning of the text. -/
theorem withoutTerminator_isPrefix (t : Text) : t.withoutTerminator <+: t :=
  ⟨t.terminator, withoutTerminator_append_terminator t⟩

/-- The terminator of a text is an end of the text. -/
theorem terminator_isSuffix (t : Text) : t.terminator <:+ t :=
  ⟨t.withoutTerminator, withoutTerminator_append_terminator t⟩

/-! ## Lines -/

/-- Without its terminator a line holds no newline. -/
theorem newline_notMem_withoutTerminator {t : Text} (h : '\n' ∉ t.dropLast) :
    '\n' ∉ t.withoutTerminator := by
  intro hmem
  obtain ⟨earlier, later, hcontent⟩ := List.append_of_mem hmem
  have hwhole := withoutTerminator_append_terminator t
  rw [hcontent, List.append_assoc, List.cons_append] at hwhole
  -- the newline is the last character of the line, so a terminator would begin there already
  have hlast : later ++ t.terminator = [] := by
    by_contra hne
    apply h
    rw [← hwhole, List.dropLast_append_of_ne_nil (List.cons_ne_nil _ _),
      List.dropLast_cons_of_ne_nil hne]
    exact List.mem_append_right _ List.mem_cons_self
  rw [hlast] at hwhole
  have hlength := (parts_withoutTerminator t).leftmost earlier ['\n'] hwhole .newline
  rw [hcontent, List.length_append, List.length_cons] at hlength
  omega

/-- **The terminator that is taken away from a text is the one that is put back.**  Whatever a
text ends in, a content and an ending are its two parts exactly if the walk leaves the content
and the tests see the ending; put together the two are the text.  Without its terminator no line
of a text holds a newline. -/
theorem parts_of_text_and_lines (t : Text) :
    (∀ content ending, Parts t content ending ↔
      content = t.withoutTerminator ∧ ending = t.terminator) ∧
    t.withoutTerminator ++ t.terminator = t ∧
    ∀ line ∈ Line.ofSource t, '\n' ∉ line.text.withoutTerminator := by
  refine ⟨fun content ending => parts_iff, withoutTerminator_append_terminator t, ?_⟩
  intro line hline
  exact newline_notMem_withoutTerminator (Line.isLine_of_mem hline).newline

/-- Of three newlines at the end only the last one is taken away, although a carriage return stands
in front of the one before it; and of two carriage returns in front of the first newline only the
second one goes with it. -/
theorem parts_of_text_and_lines_returns :
    let t : Text := "a\r\r\n\r\n\n".toList
    let line : Line := ⟨0, "a\r\r\n".toList⟩
    Parts t "a\r\r\n\r\n".toList "\n".toList ∧ line ∈ Line.ofSource t ∧
      line.text.withoutTerminator = "a\r".toList ∧ '\n' ∉ line.text.withoutTerminator := by
  intro t line
  obtain ⟨hparts, -, hlines⟩ := parts_of_text_and_lines t
  have hline : line ∈ Line.ofSource t := by decide
  exact ⟨(hparts _ _).mpr (by decide), hline, by decide, hlines line hline⟩

end Text

end RuleSweep
