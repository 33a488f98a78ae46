/-
# How far a hit reaches

A pattern is solid if every alternative has a piece, and stays within lines if none
searches for a newline.  A hit of a solid pattern takes at least one character
(`Pattern.hit?_pos`).  A pattern that stays within lines takes no newline and does not even
look behind one: `Pattern.hit?_append_newline`.  The pattern of a search text is solid, and
it stays within lines if the search text does.
-/
import RuleSweep.Proofs.Pattern.Leftmost
import RuleSweep.Proofs.Text.Trim

namespace RuleSweep

namespace Pattern

/-- Every alternative has at least one piece. -/
def Solid (pattern : Pattern) : Prop :=
  ∀ pieces ∈ pattern.alternatives, pieces ≠ []

/-- No alternative searches for a newline. -/
def WithinLine (pattern : Pattern) : Prop :=
  ∀ pieces ∈ pattern.alternatives, Piece.char '\n' ∉ pieces

/-! ## Length -/

/-- A hit takes no more characters than there are. -/
theorem hit?_length_le {pattern : Pattern} {text : Text} {hit : Hit}
    (h : pattern.hit? text = some hit) : hit.length ≤ text.length := by
  obtain ⟨span, _, _, _, _, hlength, hfirst⟩ := firstFit?_eq_some h
  rw [← hlength]
  exact hfirst.begins.length_le

/-- A hit of a solid pattern takes at least one character. -/
theorem hit?_pos {pattern : Pattern} {text : Text} {hit : Hit} (hsolid : pattern.Solid)
    (h : pattern.hit? text = some hit) : 0 < hit.length := by
  obtain ⟨span, earlier, used, later, _, hlength, hfirst⟩ := firstFit?_eq_some h
  have hused : used ≠ [] := hsolid used (by rw [hfirst.split]; simp)
  rw [← hlength]
  exact List.length_pos_of_ne_nil (hfirst.reads.span_ne_nil hused)

/-- A pattern that fits nowhere with more text ahead does not fit without it. -/
theorem hit?_eq_none_of_append {pattern : Pattern} {text more : Text}
    (h : pattern.hit? (text ++ more) = none) : pattern.hit? text = none := by
  rw [hit?, firstFit?_eq_none_iff] at h ⊢
  intro pieces hpieces hfits
  exact h pieces hpieces (hfits.append more)

/-- At the end of a text a solid pattern does not fit. -/
theorem hit?_nil {pattern : Pattern} (hsolid : pattern.Solid) : pattern.hit? [] = none := by
  cases hhit : pattern.hit? [] with
  | none => rfl
  | some hit =>
    have hpos := hit?_pos hsolid hhit
    have hle := hit?_length_le hhit
    rw [List.length_nil] at hle
    omega

/-- A search for a solid pattern has no answer if the pattern fits at no character. -/
theorem find?_eq_none {pattern : Pattern} {text : Text} (hsolid : pattern.Solid)
    (h : ∀ before after, text = before ++ after → after ≠ [] → pattern.hit? after = none) :
    pattern.find? text = none := by
  rw [find?_eq_none_iff]
  intro s
  by_cases hafter : text.drop s = []
  · rw [hafter, hit?_nil hsolid]
  · exact h (text.take s) (text.drop s) (List.take_append_drop s text).symm hafter

end Pattern

/-- The next candidate cuts the text ahead into a gap, what was found, and the rest: the
pattern fits behind the gap as found, and at no place in the gap. -/
theorem Candidate.exists_gap_of_next? {pattern : Pattern} {head : Head} {candidate : Candidate}
    (h : next? pattern head = some candidate) :
    ∃ gap rest, head.ahead = gap ++ candidate.text ++ rest ∧
      candidate.start = head.position + gap.length ∧
      pattern.hit? (candidate.text ++ rest)
        = some ⟨candidate.text.length, candidate.groups⟩ ∧
      ∀ s < gap.length, pattern.hit? (head.ahead.drop s) = none := by
  obtain ⟨s, hit, hhit, hbefore, rfl⟩ := Pattern.next?_eq_some_iff.mp h
  have hs : s ≤ head.ahead.length := by
    -- behind the end the pattern fits no better than at the end
    by_contra hlt
    have hnone := hbefore head.ahead.length (by omega)
    rw [List.drop_length] at hnone
    rw [List.drop_of_length_le (by omega), hnone] at hhit
    exact absurd hhit (by simp)
  have hlength : ((head.ahead.drop s).take hit.length).length = hit.length :=
    List.length_take_of_le (Pattern.hit?_length_le hhit)
  refine ⟨head.ahead.take s, (head.ahead.drop s).drop hit.length, ?_, ?_, ?_, ?_⟩
  · rw [List.append_assoc, List.take_append_drop, List.take_append_drop]
  · rw [List.length_take_of_le hs]
  · rw [List.take_append_drop, hlength]
    exact hhit
  · rw [List.length_take_of_le hs]
    exact hbefore

/-! ## Newlines -/

/-- What a wildcard finds holds no newline. -/
theorem Wildcard.Finds.newline_notMem {w : Wildcard} {t : Text} (h : w.Finds t) : '\n' ∉ t := by
  cases w with
  | number =>
    intro hmem
    exact absurd (h.2 '\n' hmem) (by decide)
  | ideograph =>
    obtain ⟨d, hd, rfl⟩ := h
    intro hmem
    rw [List.mem_singleton] at hmem
    subst hmem
    exact absurd hd (by decide)

namespace Piece

/-- Pieces that search for no newline read none. -/
theorem Reads.newline_notMem {pieces : List Piece} {captures : List Text} {span : Text}
    (h : Reads pieces captures span) (hpieces : Piece.char '\n' ∉ pieces) : '\n' ∉ span := by
  induction h with
  | nil => exact List.not_mem_nil
  | char c _ ih =>
    rw [List.mem_cons, not_or] at hpieces ⊢
    exact ⟨fun hc => hpieces.1 (hc ▸ rfl), ih hpieces.2⟩
  | wildcard finds _ ih =>
    rw [List.mem_append, not_or]
    exact ⟨finds.newline_notMem, ih (List.not_mem_of_not_mem_cons hpieces)⟩

/-- The longest run of digits in front of a newline is the longest one there would be at
the end of the text. -/
theorem longestRun_append_newline {α : Type} {goOn : Text → Option α} {b : Text}
    (h : ∀ a, goOn (a ++ '\n' :: b) = goOn a) (a : Text) :
    longestRun goOn (a ++ '\n' :: b) = longestRun goOn a := by
  induction a with
  | nil => rfl
  | cons d a ih =>
    -- a newline is no digit, so both sides try the same runs
    rw [List.cons_append, longestRun, longestRun, ih, h a]

/-- Pieces that search for no newline fit in front of one as they would fit at the end of
the text. -/
theorem fit?_append_newline {pieces : List Piece} (hpieces : Piece.char '\n' ∉ pieces)
    (a b : Text) : fit? pieces (a ++ '\n' :: b) = fit? pieces a := by
  induction pieces generalizing a with
  | nil => rfl
  | cons piece pieces ih =>
    rw [List.mem_cons, not_or] at hpieces
    cases piece with
    | char c =>
      cases a with
      | nil =>
        have hc : c ≠ '\n' := fun hc => hpieces.1 (hc ▸ rfl)
        rw [List.nil_append, fit?_char_cons, if_neg hc, fit?]
      | cons d a =>
        rw [List.cons_append, fit?_char_cons, fit?_char_cons, ih hpieces.2 a]
    | wildcard w =>
      cases w with
      | number =>
        rw [fit?_number, fit?_number, longestRun_append_newline (ih hpieces.2) a]
      | ideograph =>
        cases a with
        | nil => rfl
        | cons d a =>
          rw [List.cons_append, fit?_ideograph_cons, fit?_ideograph_cons, ih hpieces.2 a]

end Piece

namespace Pattern

/-- A hit of a pattern that stays within lines takes no newline. -/
theorem newline_notMem_take_hit {pattern : Pattern} {text : Text} {hit : Hit}
    (hline : pattern.WithinLine) (h : pattern.hit? text = some hit) :
    '\n' ∉ text.take hit.length := by
  obtain ⟨span, earlier, used, later, _, hlength, hfirst⟩ := firstFit?_eq_some h
  rw [← hlength, ← List.prefix_iff_eq_take.mp hfirst.begins]
  exact hfirst.reads.newline_notMem (hline used (by rw [hfirst.split]; simp))

/-- **A pattern that stays within lines does not look behind a newline.** -/
theorem hit?_append_newline {pattern : Pattern} (hline : pattern.WithinLine) (a b : Text) :
    pattern.hit? (a ++ '\n' :: b) = pattern.hit? a := by
  obtain ⟨alternatives⟩ := pattern
  show firstFit? alternatives (a ++ '\n' :: b) = firstFit? alternatives a
  induction alternatives with
  | nil => rfl
  | cons pieces others ih =>
    obtain ⟨hpieces, hothers⟩ := List.forall_mem_cons.mp hline
    rw [firstFit?, firstFit?, Piece.fit?_append_newline hpieces, ih hothers]

/-- What follows a newline does not change how a pattern fits that stays within lines. -/
theorem hit?_append_of_mem {pattern : Pattern} {t : Text} (hline : pattern.WithinLine)
    (h : '\n' ∈ t) (later : Text) : pattern.hit? (t ++ later) = pattern.hit? t := by
  obtain ⟨line, others, rfl⟩ := List.append_of_mem h
  rw [List.append_assoc, List.cons_append, hit?_append_newline hline, hit?_append_newline hline]

end Pattern

/-! ## Patterns of search texts -/

namespace Piece

/-- A character among the pieces of a text stands in the text. -/
theorem mem_of_char_mem_ofText {c : Char} {t : Text} (h : Piece.char c ∈ ofText t) : c ∈ t := by
  fun_induction ofText t with
  | case1 => simp at h
  | case2 rest ih => simp_all
  | case3 rest ih => simp_all
  | case4 d rest _ _ ih =>
    rcases List.mem_cons.mp h with hc | h
    · simp_all
    · exact List.mem_cons_of_mem d (ih h)

/-- A text that is not empty has pieces. -/
theorem ofText_ne_nil {t : Text} (h : t ≠ []) : ofText t ≠ [] := by
  fun_cases ofText t with
  | case1 => exact absurd rfl h
  | case2 rest => exact List.cons_ne_nil _ _
  | case3 rest => exact List.cons_ne_nil _ _
  | case4 d rest _ _ => exact List.cons_ne_nil _ _

end Piece

namespace Pattern

/-- Shielding adds no character but the shield. -/
theorem mem_of_mem_shielded {c : Char} {t : Text} (h : c ∈ shielded t) : c = shield ∨ c ∈ t := by
  fun_induction shielded t with
  | case1 => simp at h
  | case2 rest ih =>
    rcases List.mem_cons.mp h with rfl | h
    · exact Or.inl rfl
    · rcases ih h with hc | hc
      · exact Or.inl hc
      · exact Or.inr (by simp [hc])
  | case3 d rest _ ih =>
    rcases List.mem_cons.mp h with rfl | h
    · exact Or.inr List.mem_cons_self
    · rcases ih h with hc | hc
      · exact Or.inl hc
      · exact Or.inr (List.mem_cons_of_mem d hc)

/-- Taking the shields away adds no character but those of the mark. -/
theorem mem_of_mem_unshielded {c : Char} {t : Text} (h : c ∈ unshielded t) :
    c ∈ alternativeMark ∨ c ∈ t := by
  rw [unshielded, List.mem_flatMap] at h
  obtain ⟨d, hd, hc⟩ := h
  split at hc
  · exact Or.inl hc
  · rw [List.mem_singleton] at hc
    exact Or.inr (hc ▸ hd)

/-- A text that is not empty stays so when its shields are taken away. -/
theorem unshielded_ne_nil {t : Text} (h : t ≠ []) : unshielded t ≠ [] := by
  cases t with
  | nil => exact absurd rfl h
  | cons c rest =>
    rw [unshielded, List.flatMap_cons]
    intro hnil
    have hfirst := (List.append_eq_nil_iff.mp hnil).1
    split at hfirst
    · exact absurd hfirst (by decide)
    · exact absurd hfirst (List.cons_ne_nil c [])

/-- A text begins with its first part. -/
theorem isPrefix_of_cutAlternatives {t first : Text} {others : List Text}
    (h : cutAlternatives t = first :: others) : first <+: t := by
  fun_induction cutAlternatives t generalizing first others with
  | case1 => exact (List.cons.inj h).1 ▸ List.nil_prefix
  | case2 rest _ => exact (List.cons.inj h).1 ▸ List.nil_prefix
  | case3 c rest _ ih =>
    cases hcut : cutAlternatives rest with
    | nil =>
      rw [hcut, Text.consFirst, List.cons.injEq] at h
      exact h.1 ▸ List.prefix_append [c] rest
    | cons next others' =>
      rw [hcut, Text.consFirst, List.cons.injEq] at h
      exact h.1 ▸ (List.prefix_cons_inj c).mpr (ih hcut)

/-- Cutting makes parts of the text. -/
theorem isInfix_of_mem_cutAlternatives {t part : Text} (h : part ∈ cutAlternatives t) :
    part <:+: t := by
  fun_induction cutAlternatives t generalizing part with
  | case1 => exact (List.mem_singleton.mp h) ▸ List.infix_rfl
  | case2 rest ih =>
    rcases List.mem_cons.mp h with rfl | h
    · exact List.nil_infix
    · exact (ih h).trans (List.suffix_append alternativeMark rest).isInfix
  | case3 c rest hrest ih =>
    cases hcut : cutAlternatives rest with
    | nil =>
      rw [hcut, Text.consFirst, List.mem_singleton] at h
      exact h ▸ (List.prefix_append [c] rest).isInfix
    | cons first others =>
      rw [hcut, Text.consFirst] at h
      rcases List.mem_cons.mp h with rfl | hlater
      · exact ((List.prefix_cons_inj c).mpr (isPrefix_of_cutAlternatives hcut)).isInfix
      · have hpart : part ∈ cutAlternatives rest := hcut ▸ List.mem_cons_of_mem first hlater
        exact (ih hpart).trans (List.suffix_cons c rest).isInfix

/-- Dropping blanks behind a mark leaves parts of the texts. -/
theorem exists_isInfix_of_mem_trimAfter {parts : List Text} {part : Text}
    (h : part ∈ trimInside.trimAfter parts) : ∃ whole ∈ parts, part <:+: whole := by
  fun_induction trimInside.trimAfter parts with
  | case1 => exact absurd h List.not_mem_nil
  | case2 t =>
    rw [List.mem_singleton] at h
    exact ⟨t, List.mem_cons_self, h ▸ (Text.trimLeft_isSuffix t).isInfix⟩
  | case3 t ts _ ih =>
    rcases List.mem_cons.mp h with rfl | h
    · exact ⟨t, List.mem_cons_self, Text.trim_isInfix t⟩
    · obtain ⟨whole, hwhole, hpart⟩ := ih h
      exact ⟨whole, List.mem_cons_of_mem t hwhole, hpart⟩

/-- Dropping blanks next to the marks leaves parts of the texts. -/
theorem exists_isInfix_of_mem_trimInside {parts : List Text} {part : Text}
    (h : part ∈ trimInside parts) : ∃ whole ∈ parts, part <:+: whole := by
  fun_cases trimInside parts with
  | case1 => exact absurd h List.not_mem_nil
  | case2 t => exact ⟨t, List.mem_cons_self, List.mem_singleton.mp h ▸ List.infix_rfl⟩
  | case3 t ts hts =>
    rw [trimInside] at h
    · rcases List.mem_cons.mp h with rfl | h
      · exact ⟨t, List.mem_cons_self, (Text.trimRight_isPrefix t).isInfix⟩
      · obtain ⟨whole, hwhole, hpart⟩ := exists_isInfix_of_mem_trimAfter h
        exact ⟨whole, List.mem_cons_of_mem t hwhole, hpart⟩
    · exact hts

/-- The alternatives of a search text are parts of it, as far as shields take the place of
escaped marks in it. -/
theorem exists_isInfix_of_mem_splitAlternatives {search part : Text}
    (h : part ∈ splitAlternatives search) :
    ∃ inside, inside ≠ [] ∧ inside <:+: shielded search ∧ part = unshielded inside := by
  rw [splitAlternatives, List.mem_map] at h
  obtain ⟨inside, hinside, rfl⟩ := h
  obtain ⟨htrimmed, hne⟩ := List.mem_filter.mp hinside
  obtain ⟨whole, hwhole, hpart⟩ := exists_isInfix_of_mem_trimInside htrimmed
  exact ⟨inside, by simpa using hne, hpart.trans (isInfix_of_mem_cutAlternatives hwhole), rfl⟩

/-- The alternatives of a search text hold its characters and those of the mark. -/
theorem mem_of_mem_splitAlternatives {c : Char} {search part : Text}
    (hpart : part ∈ splitAlternatives search) (h : c ∈ part) :
    c ∈ alternativeMark ∨ c = shield ∨ c ∈ search := by
  obtain ⟨inside, -, hinside, rfl⟩ := exists_isInfix_of_mem_splitAlternatives hpart
  rcases mem_of_mem_unshielded h with hc | hc
  · exact Or.inl hc
  · exact Or.inr (mem_of_mem_shielded (hinside.subset hc))

/-- No alternative of a search text is empty. -/
theorem ne_nil_of_mem_splitAlternatives {search part : Text}
    (hpart : part ∈ splitAlternatives search) : part ≠ [] := by
  obtain ⟨inside, hne, -, rfl⟩ := exists_isInfix_of_mem_splitAlternatives hpart
  exact unshielded_ne_nil hne

/-- The pattern of a search text is solid. -/
theorem solid_of_ofSearch? {search : Text} {pattern : Pattern}
    (h : ofSearch? search = some pattern) : pattern.Solid := by
  rw [Solid, alternatives_of_ofSearch? h, readings, List.forall_mem_map]
  intro part hpart
  exact Piece.ofText_ne_nil (ne_nil_of_mem_splitAlternatives hpart)

/-- The pattern of a search text without a newline stays within lines. -/
theorem withinLine_of_ofSearch? {search : Text} {pattern : Pattern}
    (h : ofSearch? search = some pattern) (hsearch : '\n' ∉ search) : pattern.WithinLine := by
  rw [WithinLine, alternatives_of_ofSearch? h, readings, List.forall_mem_map]
  intro part hpart hmem
  rcases mem_of_mem_splitAlternatives hpart (Piece.mem_of_char_mem_ofText hmem) with hc | hc | hc
  · exact absurd hc (by decide)
  · exact absurd hc (by decide)
  · exact hsearch hc

end Pattern

end RuleSweep
