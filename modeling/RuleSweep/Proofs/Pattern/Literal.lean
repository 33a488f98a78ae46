/-
# Patterns of literal texts

A search text without marks and wildcards is searched for as it is written, character by
character; it goes through the shield, the cut into alternatives and the reading of
wildcards unchanged.  There is one exception: the shield itself, if the search text holds
it, is taken for `\[or]` and comes out as `[or]`.  So the pattern of such a text is that of
its unshielded form (`ofSearch?_eq_literal`), and it fits wherever this form stands:
`hit?_literal`.
-/
import RuleSweep.Proofs.Pattern.Bounds
import RuleSweep.Proofs.Template.Rewriting

namespace RuleSweep

/-- There are no wildcards among characters. -/
theorem Piece.wildcards_map_char (t : Text) : wildcards (t.map .char) = [] := by
  induction t with
  | nil => rfl
  | cons c t ih => exact ih

namespace Pattern

/-- The pattern that searches for a text, character by character. -/
def literal (t : Text) : Pattern := ⟨[t.map .char]⟩

/-! ## Reading the search text -/

section Reading

variable {t : Text}

/-- Where no mark stands, nothing is shielded. -/
theorem shielded_of_not_isInfix (h : ¬ alternativeMark <:+: t) : shielded t = t := by
  fun_induction shielded t with
  | case1 => rfl
  | case2 rest ih => exact absurd ⟨['\\'], rest, rfl⟩ h
  | case3 c rest _ ih => rw [ih fun hrest => h (hrest.trans (List.suffix_cons c rest).isInfix)]

/-- Where no mark stands, there is one alternative. -/
theorem cutAlternatives_of_not_isInfix (h : ¬ alternativeMark <:+: t) :
    cutAlternatives t = [t] := by
  fun_induction cutAlternatives t with
  | case1 => rfl
  | case2 rest ih => exact absurd ⟨[], rest, rfl⟩ h
  | case3 c rest _ ih =>
    rw [ih fun hrest => h (hrest.trans (List.suffix_cons c rest).isInfix), Text.consFirst]

/-- A search text without a mark is its only alternative. -/
theorem splitAlternatives_of_not_isInfix (hne : t ≠ []) (h : ¬ alternativeMark <:+: t) :
    splitAlternatives t = [unshielded t] := by
  have hfilter : [t].filter (!·.isEmpty) = [t] := by simpa using hne
  rw [splitAlternatives, shielded_of_not_isInfix h, cutAlternatives_of_not_isInfix h, trimInside,
    hfilter, List.map_singleton]

/-- A text without a shield is left as it is. -/
theorem unshielded_of_notMem (h : shield ∉ t) : unshielded t = t := by
  induction t with
  | nil => rfl
  | cons c t ih =>
    rw [List.mem_cons, not_or] at h
    have hrest := ih h.2
    rw [unshielded] at hrest ⊢
    rw [List.flatMap_cons, if_neg (Ne.symm h.1), hrest, List.singleton_append]

/-- What an unshielded text begins with, up to its first bracket, the text itself begins
with. -/
theorem isPrefix_of_isPrefix_unshielded {a : Text} (ha : '[' ∉ a) (h : a <+: unshielded t) :
    a <+: t := by
  induction a generalizing t with
  | nil => exact List.nil_prefix
  | cons x a ih =>
    rw [List.mem_cons, not_or] at ha
    cases t with
    | nil => exact h
    | cons c t =>
      rw [unshielded, List.flatMap_cons] at h
      by_cases hc : c = shield
      · rw [if_pos hc] at h
        exact absurd (List.cons_prefix_cons.mp h).1.symm ha.1
      · rw [if_neg hc, List.singleton_append, List.cons_prefix_cons] at h
        exact List.cons_prefix_cons.mpr ⟨h.1, ih ha.2 h.2⟩

/-- Taking the shields away makes no wildcard marker. -/
theorem ofText_unshielded (h : ∀ w : Wildcard, ¬ w.marker <:+: t) :
    Piece.ofText (unshielded t) = (unshielded t).map .char := by
  induction t with
  | nil => rfl
  | cons c t ih =>
    have hrest := ih fun w hw => h w (hw.trans (List.suffix_cons c t).isInfix)
    by_cases hc : c = shield
    · -- in place of the shield stands `[or]`, which begins no marker
      have hcons : unshielded (c :: t) = alternativeMark ++ unshielded t := by
        rw [unshielded, List.flatMap_cons, if_pos hc, unshielded]
      have hmark : Piece.ofText (alternativeMark ++ unshielded t)
          = alternativeMark.map .char ++ Piece.ofText (unshielded t) := rfl
      rw [hcons, hmark, hrest, List.map_append]
    · have hcons : unshielded (c :: t) = c :: unshielded t := by
        rw [unshielded, List.flatMap_cons, if_neg hc, List.singleton_append, unshielded]
      have hmarker : Template.markerAt? (c :: unshielded t) = none := by
        rw [Template.markerAt?_eq_none_iff]
        intro w hw
        rw [Wildcard.marker, List.cons_append, List.cons_prefix_cons] at hw
        have hname : '[' ∉ w.name ++ [']'] := by cases w <;> decide
        have hbehind := isPrefix_of_isPrefix_unshielded hname hw.2
        exact h w (List.cons_prefix_cons.mpr ⟨hw.1, hbehind⟩).isInfix
      rw [hcons, Piece.ofText_cons hmarker, hrest, List.map_cons]

/-- What a shielded text begins with, if it holds no shield, the text itself begins with. -/
theorem isPrefix_of_isPrefix_shielded {a : Text} (ha : shield ∉ a) (h : a <+: shielded t) :
    a <+: t := by
  fun_induction shielded t generalizing a with
  | case1 => exact h
  | case2 rest _ =>
    cases a with
    | nil => exact List.nil_prefix
    | cons x a =>
      rw [(List.cons_prefix_cons.mp h).1] at ha
      exact absurd List.mem_cons_self ha
  | case3 c rest _ ih =>
    cases a with
    | nil => exact List.nil_prefix
    | cons x a =>
      obtain ⟨hx, hrest⟩ := List.cons_prefix_cons.mp h
      exact List.cons_prefix_cons.mpr ⟨hx, ih (List.not_mem_of_not_mem_cons ha) hrest⟩

/-- What stands in a shielded text, if it holds no shield, stands in the text itself. -/
theorem isInfix_of_isInfix_shielded {a : Text} (ha : shield ∉ a) (h : a <:+: shielded t) :
    a <:+: t := by
  obtain ⟨before, after, hsplit⟩ := h
  -- induction on what stands in front; the text is read from its beginning
  fun_induction shielded t generalizing before with
  | case1 =>
    rw [List.append_eq_nil_iff, List.append_eq_nil_iff] at hsplit
    exact hsplit.1.2 ▸ List.nil_infix
  | case2 rest ih =>
    cases before with
    | nil =>
      cases a with
      | nil => exact List.nil_infix
      | cons x a =>
        rw [List.nil_append, List.cons_append, List.cons.injEq] at hsplit
        exact absurd (hsplit.1 ▸ List.mem_cons_self) ha
    | cons x before =>
      rw [List.cons_append, List.cons_append, List.cons.injEq] at hsplit
      exact (ih before hsplit.2).trans (List.suffix_append ('\\' :: alternativeMark) rest).isInfix
  | case3 c rest hc ih =>
    cases before with
    | nil =>
      have hprefix : a <+: shielded (c :: rest) := by
        rw [shielded]
        · exact ⟨after, hsplit⟩
        · exact hc
      exact (isPrefix_of_isPrefix_shielded ha hprefix).isInfix
    | cons x before =>
      rw [List.cons_append, List.cons_append, List.cons.injEq] at hsplit
      exact (ih before hsplit.2).trans (List.suffix_cons c rest).isInfix

/-- **The pattern of a search text without marks and wildcards is its unshielded form.** -/
theorem ofSearch?_eq_literal (hne : t ≠ []) (hmark : ¬ alternativeMark <:+: t)
    (hwildcards : ∀ w : Wildcard, ¬ w.marker <:+: t) :
    ofSearch? t = some (literal (unshielded t)) := by
  rw [ofSearch?, splitAlternatives_of_not_isInfix hne hmark]
  simp only [List.map_singleton, ofText_unshielded hwildcards, literal]

/-- **The pattern of a search text without wildcard markers has no wildcards**, however many
alternatives it has. -/
theorem wildcards_of_ofSearch? {pattern : Pattern} (h : ofSearch? t = some pattern)
    (hwildcards : ∀ w : Wildcard, ¬ w.marker <:+: t) : pattern.wildcards = [] := by
  rw [wildcards, alternatives_of_ofSearch? h, readings, List.flatMap_eq_nil_iff,
    List.forall_mem_map]
  intro part hpart
  obtain ⟨inside, -, hinside, rfl⟩ := exists_isInfix_of_mem_splitAlternatives hpart
  have hmarker : ∀ w : Wildcard, ¬ w.marker <:+: inside := by
    intro w hw
    have hshield : shield ∉ w.marker := by cases w <;> decide
    exact hwildcards w (isInfix_of_isInfix_shielded hshield (hw.trans hinside))
  rw [ofText_unshielded hmarker, Piece.wildcards_map_char]

end Reading

/-! ## Searching -/

/-- Characters alone fit where they stand. -/
theorem fit?_map_char (t text : Text) :
    Piece.fit? (t.map .char) text = if t <+: text then some ⟨t.length, []⟩ else none := by
  induction t generalizing text with
  | nil => rw [if_pos List.nil_prefix, List.map_nil, Piece.fit?, List.length_nil]
  | cons c t ih =>
    rw [List.map_cons]
    cases text with
    | nil => rw [if_neg (by simp), Piece.fit?]
    | cons d rest =>
      rw [Piece.fit?_char_cons, ih rest]
      by_cases hc : c = d
      · by_cases ht : t <+: rest <;> simp [List.cons_prefix_cons, hc, ht]
      · simp [List.cons_prefix_cons, hc]

/-- **The pattern of a text fits where the text stands.** -/
theorem hit?_literal (t text : Text) :
    (literal t).hit? text = if t <+: text then some ⟨t.length, []⟩ else none := by
  rw [literal, hit?, firstFit?, fit?_map_char]
  by_cases ht : t <+: text <;> simp [firstFit?, ht]

end Pattern

end RuleSweep
