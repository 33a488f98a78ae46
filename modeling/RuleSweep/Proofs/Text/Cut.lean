/-
# Cutting texts

What is known of the parts when a text is cut at the first place of a mark
(`Text.cutAt?`), or at every place of a character (`Text.cutEvery`).  Cutting at a character
undoes joining with it, provided that no piece holds the character: `cutEvery_joinWith`.
-/
import Mathlib.Data.List.Infix
import RuleSweep.Text

namespace RuleSweep

namespace Text

/-! ## The first place of a mark -/

/-- The parts in front of a mark and behind it, with the mark between them, are the
text. -/
theorem append_of_cutAt? {mark t before after : Text}
    (h : cutAt? mark t = some (before, after)) : before ++ mark ++ after = t := by
  induction t generalizing before with
  | nil =>
    rw [cutAt?] at h
    split at h
    · next hmark =>
      simp only [Option.some.injEq, Prod.mk.injEq] at h
      rw [← h.1, ← h.2, List.isEmpty_iff.mp hmark]
      rfl
    · exact absurd h (by simp)
  | cons c rest ih =>
    rw [cutAt?] at h
    split at h
    · next hmark =>
      simp only [Option.some.injEq, Prod.mk.injEq] at h
      obtain ⟨behind, hbehind⟩ := List.isPrefixOf_iff_prefix.mp hmark
      rw [← h.1, ← h.2, ← hbehind, List.drop_left, List.nil_append]
    · rw [Option.map_eq_some_iff] at h
      obtain ⟨⟨before', after'⟩, hcut, heq⟩ := h
      simp only [Prod.mk.injEq] at heq
      obtain ⟨rfl, rfl⟩ := heq
      rw [List.cons_append, List.cons_append, ih hcut]

/-- A text is not cut exactly if the mark stands nowhere in it. -/
theorem cutAt?_eq_none_iff {mark t : Text} : cutAt? mark t = none ↔ ¬ mark <:+: t := by
  induction t with
  | nil => simp [cutAt?]
  | cons c rest ih =>
    rw [cutAt?, List.infix_cons_iff, not_or, ← ih]
    by_cases hmark : mark <+: c :: rest
    · simp [List.isPrefixOf_iff_prefix.mpr hmark, hmark]
    · rw [if_neg (by simpa [List.isPrefixOf_iff_prefix] using hmark)]
      simp [hmark]

/-- The mark stands at no place further to the left than where the text is cut. -/
theorem not_isPrefix_of_cutAt? {mark t before after : Text}
    (h : cutAt? mark t = some (before, after)) {earlier later : Text}
    (heq : t = earlier ++ later) (hlt : earlier.length < before.length) : ¬ mark <+: later := by
  induction t generalizing before earlier with
  | nil =>
    rw [cutAt?] at h
    split at h
    · simp only [Option.some.injEq, Prod.mk.injEq] at h
      rw [← h.1] at hlt
      exact absurd hlt (Nat.not_lt_zero _)
    · exact absurd h (by simp)
  | cons c rest ih =>
    rw [cutAt?] at h
    split at h
    · simp only [Option.some.injEq, Prod.mk.injEq] at h
      rw [← h.1] at hlt
      exact absurd hlt (Nat.not_lt_zero _)
    · next hmark =>
      rw [Option.map_eq_some_iff] at h
      obtain ⟨⟨before', after'⟩, hcut, hcons⟩ := h
      simp only [Prod.mk.injEq] at hcons
      obtain ⟨rfl, rfl⟩ := hcons
      cases earlier with
      | nil =>
        rw [List.isPrefixOf_iff_prefix] at hmark
        rw [List.nil_append] at heq
        exact heq ▸ hmark
      | cons d earlier =>
        rw [List.cons_append, List.cons.injEq] at heq
        exact ih hcut heq.2 (Nat.lt_of_succ_lt_succ hlt)

/-- In front of its first place the mark does not stand. -/
theorem not_isInfix_of_cutAt? {mark t before after : Text} (hne : mark ≠ [])
    (h : cutAt? mark t = some (before, after)) : ¬ mark <:+: before := by
  rintro ⟨earlier, later, rfl⟩
  have hsplit := append_of_cutAt? h
  rw [List.append_assoc, List.append_assoc, List.append_assoc] at hsplit
  refine not_isPrefix_of_cutAt? h hsplit.symm ?_ (List.prefix_append mark _)
  have hpos := List.length_pos_of_ne_nil hne
  rw [List.length_append, List.length_append]
  omega

/-- A mark at the beginning of a text is its first place. -/
theorem cutAt?_append {mark : Text} (hne : mark ≠ []) (after : Text) :
    cutAt? mark (mark ++ after) = some ([], after) := by
  obtain ⟨c, rest, rfl⟩ := List.exists_cons_of_ne_nil hne
  have hprefix : (c :: rest).isPrefixOf (c :: rest ++ after) = true :=
    List.isPrefixOf_iff_prefix.mpr (List.prefix_append (c :: rest) after)
  rw [List.cons_append] at hprefix ⊢
  rw [cutAt?, if_pos hprefix, ← List.cons_append, List.drop_left]

/-- Behind a text without the character that a mark begins with stands the first place of the
mark. -/
theorem cutAt?_append_of_notMem {c : Char} {mark front : Text} (hc : c ∉ front) (after : Text) :
    cutAt? (c :: mark) (front ++ (c :: mark ++ after)) = some (front, after) := by
  induction front with
  | nil => exact cutAt?_append (List.cons_ne_nil c mark) after
  | cons d front ih =>
    rw [List.mem_cons, not_or] at hc
    have hprefix : ¬ (c :: mark).isPrefixOf (d :: (front ++ (c :: mark ++ after))) = true := by
      rw [List.isPrefixOf_iff_prefix, List.cons_prefix_cons]
      exact fun hprefix => hc.1 hprefix.1
    rw [List.cons_append, cutAt?, if_neg hprefix, ih hc.2]
    rfl

/-- A mark that does not hold a character does not reach past it. -/
theorem isPrefix_of_append_cons {c : Char} {mark t rest : Text} (hc : c ∉ mark)
    (h : mark <+: t ++ c :: rest) : mark <+: t := by
  induction mark generalizing t with
  | nil => exact List.nil_prefix
  | cons d mark ih =>
    rw [List.mem_cons, not_or] at hc
    cases t with
    | nil => exact absurd (List.cons_prefix_cons.mp h).1.symm hc.1
    | cons e t =>
      rw [List.cons_append, List.cons_prefix_cons] at h
      exact List.cons_prefix_cons.mpr ⟨h.1, ih hc.2 h.2⟩

/-- A mark that begins with a character which a text does not hold stands nowhere in it. -/
theorem isInfix_of_append {c : Char} {mark a t : Text} (hc : c ∉ a)
    (h : c :: mark <:+: a ++ t) : c :: mark <:+: t := by
  induction a with
  | nil => exact h
  | cons d a ih =>
    rw [List.mem_cons, not_or] at hc
    rw [List.cons_append, List.infix_cons_iff] at h
    rcases h with hprefix | hoccurs
    · exact absurd (List.cons_prefix_cons.mp hprefix).1 hc.1
    · exact ih hc.2 hoccurs

/-- Behind a text without the mark, and a character which the mark does not hold, stands its
first place. -/
theorem cutAt?_append_cons {c : Char} {mark t : Text} (hne : mark ≠ []) (hc : c ∉ mark)
    (h : ¬ mark <:+: t) (after : Text) :
    cutAt? mark (t ++ c :: (mark ++ after)) = some (t ++ [c], after) := by
  induction t with
  | nil =>
    have hprefix : ¬ mark.isPrefixOf (c :: (mark ++ after)) = true := by
      rw [List.isPrefixOf_iff_prefix]
      intro hprefix
      exact hne (List.prefix_nil.mp (isPrefix_of_append_cons (t := []) hc hprefix))
    rw [List.nil_append, cutAt?, if_neg hprefix, cutAt?_append hne]
    rfl
  | cons d t ih =>
    have hprefix : ¬ mark.isPrefixOf (d :: (t ++ c :: (mark ++ after))) = true := by
      rw [List.isPrefixOf_iff_prefix]
      intro hprefix
      exact h (isPrefix_of_append_cons (t := d :: t) hc hprefix).isInfix
    have hrest := ih fun hrest => h (hrest.trans (List.suffix_cons d t).isInfix)
    rw [List.cons_append, cutAt?, if_neg hprefix, hrest]
    rfl

/-! ## Every place of a character -/

/-- The pieces between marks hold no mark. -/
theorem notMem_of_mem_cutEvery {mark : Char} {t piece : Text} (h : piece ∈ cutEvery mark t) :
    mark ∉ piece := by
  induction t generalizing piece with
  | nil =>
    rw [cutEvery, List.foldr_nil, List.mem_singleton] at h
    exact h ▸ List.not_mem_nil
  | cons c rest ih =>
    rw [cutEvery_cons] at h
    split at h
    · rcases List.mem_cons.mp h with rfl | h
      · exact List.not_mem_nil
      · exact ih h
    · next hc =>
      cases hcut : cutEvery mark rest with
      | nil => exact absurd hcut (cutEvery_ne_nil mark rest)
      | cons first others =>
        rw [hcut, consFirst] at h
        rw [hcut] at ih
        rcases List.mem_cons.mp h with rfl | h
        · rw [List.mem_cons, not_or]
          exact ⟨fun hmark => hc hmark.symm, ih List.mem_cons_self⟩
        · exact ih (List.mem_cons_of_mem first h)

/-- The pieces between marks hold only characters of the text. -/
theorem mem_of_mem_cutEvery {mark : Char} {t piece : Text} (h : piece ∈ cutEvery mark t)
    {c : Char} (hc : c ∈ piece) : c ∈ t := by
  induction t generalizing piece with
  | nil =>
    rw [cutEvery, List.foldr_nil, List.mem_singleton] at h
    rwa [h] at hc
  | cons d rest ih =>
    rw [cutEvery_cons] at h
    split at h
    · rcases List.mem_cons.mp h with rfl | h
      · exact absurd hc List.not_mem_nil
      · exact List.mem_cons_of_mem d (ih h hc)
    · cases hcut : cutEvery mark rest with
      | nil => exact absurd hcut (cutEvery_ne_nil mark rest)
      | cons first others =>
        rw [hcut, consFirst] at h
        rw [hcut] at ih
        rcases List.mem_cons.mp h with rfl | h
        · exact List.mem_cons.mpr ((List.mem_cons.mp hc).imp_right (ih List.mem_cons_self))
        · exact List.mem_cons_of_mem d (ih (List.mem_cons_of_mem first h) hc)

/-- A text without the mark is a single piece. -/
theorem cutEvery_of_notMem {mark : Char} {t : Text} (h : mark ∉ t) : cutEvery mark t = [t] := by
  induction t with
  | nil => rfl
  | cons c t ih =>
    rw [List.mem_cons, not_or] at h
    rw [cutEvery_cons, if_neg (Ne.symm h.1), ih h.2, consFirst]

/-- What stands in front of the first mark is the first piece. -/
theorem cutEvery_append_cons {mark : Char} {t : Text} (h : mark ∉ t) (later : Text) :
    cutEvery mark (t ++ mark :: later) = t :: cutEvery mark later := by
  induction t with
  | nil => rw [List.nil_append, cutEvery_cons, if_pos rfl]
  | cons c t ih =>
    rw [List.mem_cons, not_or] at h
    rw [List.cons_append, cutEvery_cons, if_neg (Ne.symm h.1), ih h.2, consFirst]

/-- **Cutting undoes joining.** -/
theorem cutEvery_joinWith {mark : Char} {pieces : List Text} (hne : pieces ≠ [])
    (h : ∀ piece ∈ pieces, mark ∉ piece) : cutEvery mark (joinWith [mark] pieces) = pieces := by
  induction pieces with
  | nil => exact absurd rfl hne
  | cons piece pieces ih =>
    rw [List.forall_mem_cons] at h
    cases pieces with
    | nil => rw [joinWith, List.intercalate_singleton, cutEvery_of_notMem h.1]
    | cons next pieces =>
      have hjoin : joinWith [mark] (piece :: next :: pieces)
          = piece ++ mark :: joinWith [mark] (next :: pieces) := by
        simp [joinWith, List.intercalate_cons_cons]
      rw [hjoin, cutEvery_append_cons h.1, ih (List.cons_ne_nil next pieces) h.2]

/-! ## Joining -/

/-- Pieces are joined to the beginning of what they are joined to with one piece more. -/
theorem joinWith_isPrefix (mark last : Text) (front : List Text) :
    joinWith mark front <+: joinWith mark (front ++ [last]) := by
  induction front with
  | nil => exact List.nil_prefix
  | cons piece front ih =>
    cases front with
    | nil =>
      unfold joinWith
      rw [List.cons_append, List.nil_append, List.intercalate_cons_cons,
        List.intercalate_singleton, List.append_assoc]
      exact List.prefix_append piece _
    | cons next front =>
      unfold joinWith at ih ⊢
      rw [List.cons_append, List.cons_append, List.intercalate_cons_cons,
        List.intercalate_cons_cons, List.prefix_append_right_inj]
      exact ih

/-- Joining brings in no characters but those of the mark. -/
theorem mem_of_mem_joinWith {c : Char} {mark : Text} {pieces : List Text}
    (h : c ∈ joinWith mark pieces) : c ∈ mark ∨ ∃ piece ∈ pieces, c ∈ piece := by
  induction pieces with
  | nil => exact absurd h List.not_mem_nil
  | cons piece pieces ih =>
    cases pieces with
    | nil =>
      rw [joinWith, List.intercalate_singleton] at h
      exact .inr ⟨piece, List.mem_cons_self, h⟩
    | cons next pieces =>
      rw [joinWith, List.intercalate_cons_cons, List.mem_append, List.mem_append] at h
      rcases h with (h | h) | h
      · exact .inr ⟨piece, List.mem_cons_self, h⟩
      · exact .inl h
      · obtain hmark | ⟨other, hother, hc⟩ := ih h
        · exact .inl hmark
        · exact .inr ⟨other, List.mem_cons_of_mem piece hother, hc⟩

/-- Pieces that are joined with a mark are no more than characters, one aside. -/
theorem length_le_joinWith (c : Char) (mark : Text) (pieces : List Text) :
    pieces.length ≤ (joinWith (c :: mark) pieces).length + 1 := by
  induction pieces with
  | nil => exact Nat.zero_le _
  | cons piece pieces ih =>
    cases pieces with
    | nil => exact Nat.le_add_left _ _
    | cons next pieces =>
      unfold joinWith at ih ⊢
      rw [List.intercalate_cons_cons]
      simp only [List.length_append, List.length_cons] at ih ⊢
      omega

end Text

end RuleSweep
