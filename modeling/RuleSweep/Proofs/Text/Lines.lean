/-
# Lists of lines

A line holds at least one character, and a newline at most at its end (`Text.IsLine`).  Lines
can follow one another if each of them but the last ends in a newline (`Text.AreLines`).  The
lines of a text can, and so can those of them that a test picks out.  Lines that can follow
one another are the lines of the text that they make up: `Text.lines_flatten`.  The lines of a
source, which know their positions, hold the same texts: `Line.map_text_ofSource`.
-/
import Mathlib.Data.List.Basic
import RuleSweep.Text.Line

namespace RuleSweep

namespace Text

/-- A text that is a single line, with or without its newline. -/
structure IsLine (t : Text) : Prop where
  /-- It holds a character. -/
  ne_nil : t ≠ []
  /-- It holds a newline at most at its end. -/
  newline : '\n' ∉ t.dropLast

/-- Texts that are lines and can follow one another. -/
structure AreLines (parts : List Text) : Prop where
  /-- Each of them is a line. -/
  each : ∀ part ∈ parts, part.IsLine
  /-- One that has another behind it ends in a newline. -/
  follow : parts.Pairwise fun part _ => part.getLast? = some '\n'

/-! ## The lines of a text -/

/-- A character in front of a line, if it is no newline, makes the line longer. -/
theorem IsLine.cons {c : Char} {line : Text} (h : line.IsLine) (hc : c ≠ '\n') :
    IsLine (c :: line) := by
  constructor
  · exact List.cons_ne_nil c line
  · rw [List.dropLast_cons_of_ne_nil h.ne_nil, List.mem_cons, not_or]
    exact ⟨Ne.symm hc, h.newline⟩

/-- A single character is a line. -/
theorem isLine_singleton (c : Char) : IsLine [c] := by
  constructor
  · exact List.cons_ne_nil c []
  · exact List.not_mem_nil

/-- The lines of a text are lines that can follow one another. -/
theorem areLines_lines (t : Text) : AreLines t.lines := by
  induction t with
  | nil => exact ⟨fun part hpart => absurd hpart List.not_mem_nil, .nil⟩
  | cons c rest ih =>
    rw [lines_cons]
    split
    · next hc =>
      constructor
      · rw [List.forall_mem_cons]
        exact ⟨isLine_singleton c, ih.each⟩
      · refine .cons ?_ ih.follow
        intro part _
        rw [hc]
        rfl
    · next hc =>
      -- the character joins the first of the lines behind it, if there is one
      cases hlines : lines rest with
      | nil =>
        show AreLines [[c]]
        constructor
        · rw [List.forall_mem_singleton]
          exact isLine_singleton c
        · exact List.pairwise_singleton _ _
      | cons first others =>
        show AreLines ((c :: first) :: others)
        rw [hlines] at ih
        obtain ⟨hfirst, hothers⟩ := List.forall_mem_cons.mp ih.each
        obtain ⟨hends, hfollow⟩ := List.pairwise_cons.mp ih.follow
        constructor
        · rw [List.forall_mem_cons]
          exact ⟨hfirst.cons hc, hothers⟩
        · refine .cons ?_ hfollow
          intro part hpart
          rw [List.getLast?_cons_of_ne_nil hfirst.ne_nil]
          exact hends part hpart

/-- Those of some lines that a test picks out can follow one another as well. -/
theorem AreLines.filter {parts : List Text} (h : AreLines parts) (test : Text → Bool) :
    AreLines (parts.filter test) := by
  constructor
  · intro part hpart
    exact h.each part (List.mem_of_mem_filter hpart)
  · exact h.follow.filter test

/-! ## Cutting lines apart -/

/-- A text without newlines is a single line. -/
theorem lines_of_notMem {t : Text} (hne : t ≠ []) (h : '\n' ∉ t) : lines t = [t] := by
  induction t with
  | nil => exact absurd rfl hne
  | cons c rest ih =>
    rw [List.mem_cons, not_or] at h
    rw [lines_cons, if_neg (Ne.symm h.1)]
    by_cases hrest : rest = []
    · rw [hrest]
      rfl
    · rw [ih hrest h.2]
      rfl

/-- What ends in the first newline is the first line. -/
theorem lines_append_newline {front : Text} (h : '\n' ∉ front) (later : Text) :
    lines (front ++ '\n' :: later) = (front ++ ['\n']) :: lines later := by
  induction front with
  | nil => rw [List.nil_append, lines_cons, if_pos rfl, List.nil_append]
  | cons c front ih =>
    rw [List.mem_cons, not_or] at h
    rw [List.cons_append, lines_cons, if_neg (Ne.symm h.1), ih h.2]
    rfl

/-- A line is cut off in front of others if it ends in a newline. -/
theorem IsLine.lines_append {line : Text} (h : line.IsLine) (hends : line.getLast? = some '\n')
    (later : Text) : lines (line ++ later) = line :: lines later := by
  have hline : line.dropLast ++ ['\n'] = line := List.dropLast_append_getLast? _ hends
  rw [← hline, List.append_assoc, List.singleton_append]
  exact lines_append_newline h.newline later

/-- A line is its only line. -/
theorem IsLine.lines_eq {line : Text} (h : line.IsLine) : lines line = [line] := by
  by_cases hends : line.getLast? = some '\n'
  · have happend := h.lines_append hends []
    rwa [List.append_nil] at happend
  · refine lines_of_notMem h.ne_nil ?_
    intro hmem
    -- a newline that is not at the end would stand in front of it
    rw [← List.dropLast_append_getLast h.ne_nil, List.mem_append, List.mem_singleton] at hmem
    rcases hmem with hmem | hlast
    · exact h.newline hmem
    · rw [List.getLast?_eq_getLast_of_ne_nil h.ne_nil, ← hlast] at hends
      exact hends rfl

/-- **Lines that can follow one another are the lines of the text that they make up.** -/
theorem lines_flatten {parts : List Text} (h : AreLines parts) : lines parts.flatten = parts := by
  induction parts with
  | nil => rfl
  | cons part parts ih =>
    obtain ⟨hpart, hparts⟩ := List.forall_mem_cons.mp h.each
    obtain ⟨hends, hfollow⟩ := List.pairwise_cons.mp h.follow
    rw [List.flatten_cons]
    cases parts with
    | nil => rw [List.flatten_nil, List.append_nil, hpart.lines_eq]
    | cons next others =>
      rw [hpart.lines_append (hends next List.mem_cons_self), ih ⟨hparts, hfollow⟩]

end Text

/-! ## The lines of a source -/

namespace Line

/-- The lines of a source hold its lines. -/
theorem map_text_ofSource (source : Text) :
    (ofSource source).map Line.text = source.lines := by
  rw [ofSource]
  generalize source.lines = ts
  suffices h : ∀ start, (placeFrom start ts).map Line.text = ts from h 0
  induction ts with
  | nil => exact fun _ => rfl
  | cons t ts ih =>
    intro start
    rw [placeFrom, List.map_cons, ih]

/-- The lines of a source are lines. -/
theorem isLine_of_mem {source : Text} {line : Line} (h : line ∈ ofSource source) :
    line.text.IsLine := by
  apply (Text.areLines_lines source).each
  rw [← map_text_ofSource]
  exact List.mem_map_of_mem h

end Line

end RuleSweep
