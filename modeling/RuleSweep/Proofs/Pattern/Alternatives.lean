/-
# Joining alternatives

Texts are joined to one search text by escaping every `[or]` in them as `\[or]`, and by
putting `[or]` between two of them, with blanks on both sides (`Pattern.Joins`).  Cutting the
search text apart gives back the texts that were joined, in their order, if none of them is
empty, has blanks around it or holds the shield (`Text.IsAlternative`):
`Pattern.splitAlternatives_of_joins`.

The escaped marks become shields, so that only the marks between the texts are left
(`shielded_escaped_append`).  Each of these is a place to cut (`cutAlternatives_append`), and the
blanks next to it are dropped.
-/
import RuleSweep.Proofs.Pattern.Literal
import RuleSweep.Proofs.Rule.Row

namespace RuleSweep

namespace Text

/-- A text that can be one of several alternatives. -/
structure IsAlternative (t : Text) : Prop where
  /-- There is something to search for. -/
  ne_nil : t ≠ []
  /-- It begins with no blank. -/
  first : ∀ c ∈ t.head?, isBlank c = false
  /-- It ends with no blank. -/
  last : ∀ c ∈ t.getLast?, isBlank c = false
  /-- No character of it is taken for a mark between alternatives. -/
  shield : Pattern.shield ∉ t

instance (t : Text) : Decidable t.IsAlternative :=
  decidable_of_iff
    (t ≠ [] ∧ t.head?.all (!isBlank ·) = true ∧ t.getLast?.all (!isBlank ·) = true ∧
      Pattern.shield ∉ t)
    (by
      simp only [Option.all_eq_true, Bool.not_eq_true', ← Option.mem_def]
      exact ⟨fun h => ⟨h.1, h.2.1, h.2.2.1, h.2.2.2⟩,
        fun h => ⟨h.ne_nil, h.first, h.last, h.shield⟩⟩)

/-- Some blanks, at least one. -/
structure IsGap (t : Text) : Prop where
  /-- There is one. -/
  ne_nil : t ≠ []
  /-- There is nothing else. -/
  blank : ∀ c ∈ t, isBlank c = true

instance (t : Text) : Decidable t.IsGap :=
  decidable_of_iff (t ≠ [] ∧ t.all isBlank = true)
    (by
      rw [List.all_eq_true]
      exact ⟨fun h => ⟨h.1, h.2⟩, fun h => ⟨h.ne_nil, h.blank⟩⟩)

end Text

namespace Pattern

/-! ## Other texts in the place of marks -/

/-- Put a text in the place of every `[or]`. -/
def replaceMarks (other : Text) : Text → Text
  | [] => []
  | '[' :: 'o' :: 'r' :: ']' :: rest => other ++ replaceMarks other rest
  | c :: rest => c :: replaceMarks other rest

/-- Put a backslash in front of every `[or]`. -/
def escaped (t : Text) : Text :=
  replaceMarks ('\\' :: alternativeMark) t

/-- Put the shield in the place of every `[or]`. -/
def veiled (t : Text) : Text :=
  replaceMarks [shield] t

/-- Several texts are joined to a search text. -/
inductive Joins : List Text → Text → Prop
  /-- The marks inside a text are escaped. -/
  | single (t : Text) : Joins [t] (escaped t)
  /-- Between two texts stands a mark, with blanks on both sides. -/
  | cons (t before after : Text) {search : Text} {others : List Text} (before_gap : before.IsGap)
      (after_gap : after.IsGap) (joined : Joins others search) :
      Joins (t :: others) (escaped t ++ before ++ alternativeMark ++ after ++ search)

/-- A character at which no mark begins stays. -/
theorem replaceMarks_cons {other : Text} {c : Char} {t : Text}
    (h : ¬ alternativeMark <+: c :: t) :
    replaceMarks other (c :: t) = c :: replaceMarks other t := by
  rw [replaceMarks]
  rintro rest rfl rfl
  exact h ⟨rest, rfl⟩

section Replaced

variable {x : Char} {other : Text}

/-- What stands in front of the first thing that was put in the place of a mark stood there
before. -/
theorem isPrefix_of_isPrefix_replaceMarks {a t : Text} (hx : x ∉ a)
    (h : a <+: replaceMarks (x :: other) t) : a <+: t := by
  induction a generalizing t with
  | nil => exact List.nil_prefix
  | cons d a ih =>
    rw [List.mem_cons, not_or] at hx
    cases t with
    | nil => exact h
    | cons c t =>
      by_cases hmark : alternativeMark <+: c :: t
      · obtain ⟨rest, hrest⟩ := hmark
        rw [← hrest] at h
        exact absurd (List.cons_prefix_cons.mp h).1.symm hx.1
      · rw [replaceMarks_cons hmark, List.cons_prefix_cons] at h
        exact List.cons_prefix_cons.mpr ⟨h.1, ih hx.2 h.2⟩

/-- No mark begins where one could have begun before. -/
theorem not_isPrefix_replaceMarks (hx : x ∉ alternativeMark) (t : Text) :
    ¬ alternativeMark <+: replaceMarks (x :: other) t := by
  intro h
  obtain ⟨rest, rfl⟩ := isPrefix_of_isPrefix_replaceMarks hx h
  have hfirst : '[' = x := (List.cons_prefix_cons.mp h).1
  exact hx (hfirst ▸ List.mem_cons_self)

end Replaced

/-- Where every mark has become a shield, no mark stands. -/
theorem not_isInfix_veiled (t : Text) : ¬ alternativeMark <:+: veiled t := by
  unfold veiled
  fun_induction replaceMarks [shield] t with
  | case1 => decide
  | case2 rest ih =>
    rw [List.singleton_append, List.infix_cons_iff, not_or]
    exact ⟨fun hprefix => absurd (List.cons_prefix_cons.mp hprefix).1 (by decide), ih⟩
  | case3 c rest hmark ih =>
    have hcons : replaceMarks [shield] (c :: rest) = c :: replaceMarks [shield] rest :=
      replaceMarks.eq_3 _ c rest hmark
    rw [List.infix_cons_iff, not_or]
    exact ⟨hcons ▸ not_isPrefix_replaceMarks (by decide) (c :: rest), ih⟩

/-- Taking the shields away brings the marks back. -/
theorem unshielded_veiled {t : Text} (h : shield ∉ t) : unshielded (veiled t) = t := by
  unfold veiled
  fun_induction replaceMarks [shield] t with
  | case1 => rfl
  | case2 rest ih =>
    simp only [List.mem_cons, not_or] at h
    have hrest := ih h.2.2.2.2
    rw [unshielded] at hrest ⊢
    rw [List.singleton_append, List.flatMap_cons, if_pos rfl, hrest]
    rfl
  | case3 c rest _ ih =>
    rw [List.mem_cons, not_or] at h
    have hrest := ih h.2
    rw [unshielded] at hrest ⊢
    rw [List.flatMap_cons, if_neg (Ne.symm h.1), hrest, List.singleton_append]

/-! ## The three steps of cutting -/

/-- A character at which no escaped mark begins is not shielded. -/
theorem shielded_cons {c : Char} {t : Text} (h : ¬ '\\' :: alternativeMark <+: c :: t) :
    shielded (c :: t) = c :: shielded t := by
  rw [shielded]
  rintro rest rfl rfl
  exact h ⟨rest, rfl⟩

/-- What holds no backslash is not shielded. -/
theorem shielded_append {a : Text} (ha : '\\' ∉ a) (t : Text) :
    shielded (a ++ t) = a ++ shielded t := by
  induction a with
  | nil => rfl
  | cons c a ih =>
    rw [List.mem_cons, not_or] at ha
    rw [List.cons_append, shielded_cons fun h => ha.1 (List.cons_prefix_cons.mp h).1, ih ha.2,
      List.cons_append]

/-- **Of the marks that were escaped only shields are left**, if nothing or a blank stands behind
them. -/
theorem shielded_escaped_append (t : Text) {more : Text}
    (hmore : ∀ c ∈ more.head?, isBlank c = true) :
    shielded (escaped t ++ more) = veiled t ++ shielded more := by
  -- a mark that is not escaped could only have been one before, or reach over a blank
  have hmark : ∀ t, ¬ alternativeMark <+: escaped t ++ more := by
    intro t h
    have hescaped : ¬ alternativeMark <+: escaped t := not_isPrefix_replaceMarks (by decide) t
    refine hescaped ?_
    cases more with
    | nil => rwa [List.append_nil] at h
    | cons c more =>
      refine Text.isPrefix_of_append_cons (fun hc => ?_) h
      have hblank := List.all_eq_true.mp (by decide : alternativeMark.all (!isBlank ·)) c hc
      simp [hmore c rfl] at hblank
  unfold escaped veiled at *
  fun_induction replaceMarks [shield] t with
  | case1 => rfl
  | case2 rest ih =>
    rw [List.singleton_append, List.cons_append, ← ih]
    rfl
  | case3 c rest hrest ih =>
    rw [replaceMarks.eq_3 _ c rest hrest, List.cons_append, shielded_cons, ih, List.cons_append]
    exact fun h => hmark rest (List.cons_prefix_cons.mp h).2

/-- **A text is cut at a mark** if none stands in front of it. -/
theorem cutAlternatives_append {t : Text} (h : ¬ alternativeMark <:+: t) (later : Text) :
    cutAlternatives (t ++ (alternativeMark ++ later)) = t :: cutAlternatives later := by
  induction t with
  | nil => rfl
  | cons c t ih =>
    rw [List.infix_cons_iff, not_or] at h
    rw [List.cons_append, cutAlternatives, ih h.2]
    · rfl
    · -- a mark that begins in front of the mark would have a bracket inside it
      intro rest hc hrest
      subst hc
      have hreach : "or]".toList <+: t ++ '[' :: ("or]".toList ++ later) := ⟨rest, hrest.symm⟩
      have hinside := Text.isPrefix_of_append_cons (by decide) hreach
      exact h.1 (List.cons_prefix_cons.mpr ⟨rfl, hinside⟩)

/-- There is always an alternative, if only an empty one. -/
theorem cutAlternatives_ne_nil (t : Text) : cutAlternatives t ≠ [] := by
  fun_cases cutAlternatives t with
  | case1 => exact List.cons_ne_nil _ _
  | case2 rest => exact List.cons_ne_nil _ _
  | case3 c rest _ => cases cutAlternatives rest <;> exact List.cons_ne_nil _ _

/-! ## Joining and cutting -/

section Cut

variable {t before lead : Text}

/-- A text that holds a mark no more and has blanks around it holds none with them. -/
theorem not_isInfix_veiled_append (hlead : ∀ c ∈ lead, isBlank c = true)
    (hbefore : ∀ c ∈ before, isBlank c = true) :
    ¬ alternativeMark <:+: lead ++ veiled t ++ before := by
  have hnotMem : ∀ d, isBlank d = false → ∀ blanks : Text, (∀ c ∈ blanks, isBlank c = true) →
      d ∉ blanks := by
    intro d hd blanks hblanks hmem
    rw [hblanks d hmem] at hd
    exact absurd hd (by decide)
  intro h
  rw [List.append_assoc] at h
  have hbehind := Text.isInfix_of_append (hnotMem '[' (by decide) lead hlead) h
  -- read from its end, the mark begins with its closing bracket
  have hclosing : ']' ∉ before.reverse := by
    rw [List.mem_reverse]
    exact hnotMem ']' (by decide) before hbefore
  have hreverse : ']' :: "ro[".toList <:+: before.reverse ++ (veiled t).reverse := by
    rw [← List.reverse_append]
    exact List.reverse_infix.mpr hbehind
  have hinside := Text.isInfix_of_append hclosing hreverse
  exact not_isInfix_veiled t (List.reverse_infix.mp hinside)

/-- A text stays as long as there is one when shields take the place of its marks. -/
theorem veiled_ne_nil (hne : t ≠ []) : veiled t ≠ [] := by
  unfold veiled
  fun_cases replaceMarks [shield] t with
  | case1 => exact absurd rfl hne
  | case2 rest => exact List.cons_ne_nil _ _
  | case3 c rest _ => exact List.cons_ne_nil _ _

/-- A text that begins with no blank begins with none behind its shields. -/
theorem isBlank_head?_veiled (h : ∀ c ∈ t.head?, isBlank c = false) :
    ∀ c ∈ (veiled t).head?, isBlank c = false := by
  unfold veiled
  fun_cases replaceMarks [shield] t with
  | case1 => exact h
  | case2 rest =>
    intro c hc
    rw [← Option.some.inj hc]
    decide
  | case3 c rest _ => exact h

/-- A text that ends with no blank ends with none behind its shields. -/
theorem isBlank_getLast?_veiled (h : ∀ c ∈ t.getLast?, isBlank c = false) :
    ∀ c ∈ (veiled t).getLast?, isBlank c = false := by
  unfold veiled
  fun_induction replaceMarks [shield] t with
  | case1 => exact h
  | case2 rest ih =>
    by_cases hrest : rest = []
    · subst hrest
      intro c hc
      rw [← Option.some.inj hc]
      decide
    · have hbehind : ∀ c ∈ rest.getLast?, isBlank c = false := by
        rwa [← List.getLast?_append_of_ne_nil alternativeMark hrest]
      have hveiled : replaceMarks [shield] rest ≠ [] := veiled_ne_nil hrest
      rw [List.singleton_append, List.getLast?_cons_of_ne_nil hveiled]
      exact ih hbehind
  | case3 c rest _ ih =>
    by_cases hrest : rest = []
    · subst hrest
      exact h
    · have hveiled : replaceMarks [shield] rest ≠ [] := veiled_ne_nil hrest
      rw [List.getLast?_cons_of_ne_nil hrest] at h
      rw [List.getLast?_cons_of_ne_nil hveiled]
      exact ih h

end Cut

/-- Behind a text that is joined to others a mark stands, and then the others. -/
theorem shielded_join {t before after : Text} (hbefore : before.IsGap) (hafter : after.IsGap)
    (search : Text) :
    shielded (escaped t ++ before ++ alternativeMark ++ after ++ search)
      = veiled t ++ before ++ (alternativeMark ++ (after ++ shielded search)) := by
  have hnotMem : '\\' ∉ before ++ alternativeMark ++ after := by
    intro hmem
    rw [List.mem_append, List.mem_append] at hmem
    rcases hmem with (hmem | hmem) | hmem
    · exact absurd (hbefore.blank _ hmem) (by decide)
    · exact absurd hmem (by decide)
    · exact absurd (hafter.blank _ hmem) (by decide)
  have hfirst : ∀ c ∈ (before ++ alternativeMark ++ after ++ search).head?, isBlank c = true := by
    intro c hc
    rw [List.append_assoc, List.append_assoc,
      List.head?_append_of_ne_nil before hbefore.ne_nil] at hc
    exact hbefore.blank c (List.mem_of_mem_head? hc)
  have hshielded := shielded_escaped_append t hfirst
  rw [shielded_append hnotMem] at hshielded
  simpa only [List.append_assoc] using hshielded

/-- In a text alone the escaped marks become shields. -/
theorem shielded_escaped (t : Text) : shielded (escaped t) = veiled t := by
  have hnil : ∀ c ∈ ([] : Text).head?, isBlank c = true := by simp
  have happend := shielded_escaped_append t hnil
  rwa [List.append_nil, shielded, List.append_nil] at happend

section Joins

variable {alternatives : List Text} {search : Text} (h : Joins alternatives search)
  (hall : ∀ t ∈ alternatives, t.IsAlternative)
include h hall

/-- The alternatives that stand behind a mark, with blanks in front of the first of them. -/
theorem trimAfter_of_joins {lead : Text} (hlead : ∀ c ∈ lead, isBlank c = true) :
    trimInside.trimAfter (cutAlternatives (lead ++ shielded search))
      = alternatives.map veiled := by
  have hnil : ∀ c ∈ ([] : Text), isBlank c = true := by simp
  induction h generalizing lead with
  | single t =>
    have ht := hall t (List.mem_singleton_self t)
    have hmark : ¬ alternativeMark <:+: lead ++ veiled t := by
      have happend := not_isInfix_veiled_append (t := t) hlead hnil
      rwa [List.append_nil] at happend
    rw [shielded_escaped, cutAlternatives_of_not_isInfix hmark, trimInside.trimAfter,
      Text.trimLeft_append hlead (isBlank_head?_veiled ht.first), List.map_singleton]
  | @cons t before after search others hbefore hafter _ ih =>
    obtain ⟨ht, hothers⟩ := List.forall_mem_cons.mp hall
    have hmark := not_isInfix_veiled_append (t := t) hlead hbefore.blank
    have hcut := cutAlternatives_append hmark (after ++ shielded search)
    have htrim := Text.trim_append_append hlead (veiled_ne_nil ht.ne_nil)
      (isBlank_head?_veiled ht.first) (isBlank_getLast?_veiled ht.last) hbefore.blank
    rw [shielded_join hbefore hafter, ← List.append_assoc lead, ← List.append_assoc lead, hcut,
      trimInside.trimAfter, htrim, ih hothers hafter.blank, List.map_cons]
    exact cutAlternatives_ne_nil _

/-- The alternatives of a search text without the blanks next to its marks. -/
theorem trimInside_of_joins :
    trimInside (cutAlternatives (shielded search)) = alternatives.map veiled := by
  cases h with
  | single t =>
    rw [shielded_escaped, cutAlternatives_of_not_isInfix (not_isInfix_veiled t), trimInside,
      List.map_singleton]
  | @cons t before after search others hbefore hafter joined =>
    obtain ⟨ht, hothers⟩ := List.forall_mem_cons.mp hall
    have hnil : ∀ c ∈ ([] : Text), isBlank c = true := by simp
    have hmark := not_isInfix_veiled_append (t := t) hnil hbefore.blank
    have hcut := cutAlternatives_append hmark (after ++ shielded search)
    have htrim := Text.trimRight_append hbefore.blank (isBlank_getLast?_veiled ht.last)
    rw [List.nil_append] at hcut
    rw [shielded_join hbefore hafter, hcut, trimInside, htrim,
      trimAfter_of_joins joined hothers hafter.blank, List.map_cons]
    exact cutAlternatives_ne_nil _

/-- **Cutting undoes joining.**  The alternatives of the search text to which some texts are
joined are these texts, in their order, whatever blanks stand around the marks. -/
theorem splitAlternatives_of_joins : splitAlternatives search = alternatives := by
  have hne : ∀ t ∈ alternatives.map veiled, (!t.isEmpty) = true := by
    rw [List.forall_mem_map]
    intro t ht
    simpa using veiled_ne_nil (hall t ht).ne_nil
  have hback : ∀ t ∈ alternatives, (unshielded ∘ veiled) t = t :=
    fun t ht => unshielded_veiled (hall t ht).shield
  rw [splitAlternatives, trimInside_of_joins h hall, List.filter_eq_self.mpr hne, List.map_map,
    List.map_congr_left hback, List.map_id']

end Joins

/-- An alternative that is a backslash, one that holds an escaped mark itself, and one that is
the beginning of a mark, with blanks of several kinds between them. -/
theorem splitAlternatives_of_joins_backslashes :
    Joins ["\\".toList, "\\[or]".toList, "[o".toList]
      "\\ [or]\t\\\\[or]\u3000[or]\r\n[o".toList ∧
    (∀ t ∈ ["\\".toList, "\\[or]".toList, "[o".toList], Text.IsAlternative t) ∧
    splitAlternatives "\\ [or]\t\\\\[or]\u3000[or]\r\n[o".toList
      = ["\\".toList, "\\[or]".toList, "[o".toList] := by
  have hall : ∀ t ∈ ["\\".toList, "\\[or]".toList, "[o".toList], Text.IsAlternative t := by
    decide
  have hbehind : escaped "\\[or]".toList ++ "\u3000".toList ++ alternativeMark ++ "\r\n".toList
      ++ escaped "[o".toList = "\\\\[or]\u3000[or]\r\n[o".toList := by decide
  have hsearch : escaped "\\".toList ++ " ".toList ++ alternativeMark ++ "\t".toList
      ++ "\\\\[or]\u3000[or]\r\n[o".toList = "\\ [or]\t\\\\[or]\u3000[or]\r\n[o".toList := by
    decide
  have hjoins : Joins ["\\".toList, "\\[or]".toList, "[o".toList]
      "\\ [or]\t\\\\[or]\u3000[or]\r\n[o".toList := by
    rw [← hsearch, ← hbehind]
    exact .cons _ _ _ (by decide) (by decide) (.cons _ _ _ (by decide) (by decide) (.single _))
  exact ⟨hjoins, hall, splitAlternatives_of_joins hjoins hall⟩

end Pattern

end RuleSweep
