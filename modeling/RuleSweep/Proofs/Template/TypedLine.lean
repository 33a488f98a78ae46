/-
# The mark of the whole line in a replacement for text

Dollars are doubled so that they stay dollars, and the mark of the whole line is written with
two dollars at each end.  So a replacement that holds `$LINE$` as it is written holds the mark
once its dollars are doubled, unless a digit behind it keeps the last dollar from being doubled.
In a rule for text this is the only way to the whole line: `wholeLine_mem_signs_iff`.

A replacement that holds no `$LINE$`, no dollar in front of a digit and no wildcard marker is
put in the place of what is found as it is written: `Matcher.template_of_text_rule`.
-/
import RuleSweep.Proofs.Template.Echo
import RuleSweep.Proofs.Template.Newlines

namespace RuleSweep

namespace Text

/-- The text `$LINE$` stands in a text, and no digit stands right behind it. -/
def TypesLine (t : Text) : Prop :=
  ∃ behind : Text, behind.takeWhile isDigit = [] ∧ "$LINE$".toList ++ behind <:+ t

/-- A text that names nothing that was found. -/
structure NamesNothing (t : Text) : Prop where
  /-- No dollar stands in front of a digit. -/
  digit : ∀ d, isDigit d = true → ¬ ['$', d] <:+: t
  /-- No wildcard marker stands in it. -/
  marker : ∀ w : Wildcard, ¬ w.marker <:+: t

/-- An end that begins with a character lies behind whatever does not hold the character. -/
theorem cons_suffix_of_append {c : Char} {a s t : Text} (ha : c ∉ a) (h : c :: s <:+ a ++ t) :
    c :: s <:+ t := by
  induction a with
  | nil => exact h
  | cons d a ih =>
    rw [List.mem_cons, not_or] at ha
    rcases List.suffix_cons_iff.mp h with hhere | hbehind
    · exact absurd (List.cons.inj hhere).1 ha.1
    · exact ih ha.2 hbehind

/-- Whatever holds no dollar has no part in a typed line behind it. -/
theorem typesLine_append {a t : Text} (ha : '$' ∉ a) : TypesLine (a ++ t) ↔ TypesLine t := by
  constructor
  · rintro ⟨behind, hbehind, hsuffix⟩
    exact ⟨behind, hbehind, cons_suffix_of_append ha hsuffix⟩
  · rintro ⟨behind, hbehind, hsuffix⟩
    exact ⟨behind, hbehind, hsuffix.trans (List.suffix_append a t)⟩

/-- Only the digits that stand in a text can stand behind a dollar there. -/
theorem NamesNothing.of_forall_mem {t : Text}
    (hdigit : ∀ d ∈ t, isDigit d = true → ¬ ['$', d] <:+: t)
    (hmarker : ∀ w : Wildcard, ¬ w.marker <:+: t) : t.NamesNothing where
  digit d hd hoccurs :=
    hdigit d (hoccurs.subset (List.mem_cons_of_mem '$' (List.mem_singleton_self d))) hd hoccurs
  marker := hmarker

/-- An end of a text that names nothing names nothing. -/
theorem NamesNothing.suffix {t rest : Text} (h : t.NamesNothing) (hrest : rest <:+ t) :
    rest.NamesNothing where
  digit d hd hoccurs := h.digit d hd (hoccurs.trans hrest.isInfix)
  marker w hoccurs := h.marker w (hoccurs.trans hrest.isInfix)

end Text

namespace Template

variable {order : List Wildcard} {index : Nat} {t : Text}

/-! ## Two dollars in a rewritten replacement -/

/-- A rewritten replacement for text begins with two dollars only if it began with a dollar in
front of no digit. -/
theorem exists_cons_of_dollars_isPrefix_rewritten
    (h : ['$', '$'] <+: rewritten order .text index t) :
    ∃ behind : Text, behind.takeWhile isDigit = [] ∧ t = '$' :: behind := by
  cases t with
  | nil => exact absurd (List.prefix_nil.mp h) (by simp)
  | cons c rest =>
    by_cases hc : c = '$'
    · subst hc
      by_cases hdigits : rest.takeWhile isDigit = []
      · exact ⟨rest, hdigits, rfl⟩
      · -- the digit behind the dollar stays where it is
        rw [rewritten_numeral hdigits] at h
        cases rest with
        | nil => exact absurd rfl hdigits
        | cons d rest =>
          have hd : isDigit d = true := by
            by_contra hd
            exact hdigits (List.takeWhile_cons_of_neg hd)
          have hrun : ∀ e ∈ [d], isDigit e = true := by simpa using hd
          have hrest : rewritten order .text index ([d] ++ rest)
              = [d] ++ rewritten order .text index rest :=
            rewritten_append (notMem_of_forall_isDigit hrun (by decide))
              (notMem_of_forall_isDigit hrun (by decide)) rest
          rw [List.singleton_append, List.singleton_append] at hrest
          rw [hrest] at h
          have hdollar := (List.cons_prefix_cons.mp (List.cons_prefix_cons.mp h).2).1
          rw [← hdollar] at hd
          exact absurd hd (by decide)
    · cases hmarker : markerAt? (c :: rest) with
      | none =>
        rw [rewritten_char hc hmarker (by simp)] at h
        exact absurd (List.cons_prefix_cons.mp h).1.symm hc
      | some w =>
        -- a marker becomes a dollar in front of digits, or stays
        rw [← marker_append_drop hmarker, rewritten_marker] at h
        split at h
        · obtain ⟨d, digits, hdecimal⟩ :=
            List.exists_cons_of_ne_nil (Text.decimal_ne_nil (index + 1))
          have hd : isDigit d = true := by
            apply Text.isDigit_of_mem_decimal (index + 1)
            rw [hdecimal]
            exact List.mem_cons_self
          rw [hdecimal] at h
          have hdollar := (List.cons_prefix_cons.mp (List.cons_prefix_cons.mp h).2).1
          rw [← hdollar] at hd
          exact absurd hd (by decide)
        · have hbracket := (List.cons_prefix_cons.mp h).1
          exact absurd hbracket (by decide)

/-- A rewritten replacement for text begins with the rest of the mark exactly if it began with
`LINE$` in front of no digit. -/
theorem line_isPrefix_rewritten_iff :
    "LINE$$".toList <+: rewritten order .text index t ↔
      ∃ behind : Text, behind.takeWhile isDigit = [] ∧ t = "LINE$".toList ++ behind := by
  have hletters : ∀ rest, rewritten order .text index ("LINE".toList ++ rest)
      = "LINE".toList ++ rewritten order .text index rest :=
    fun rest => rewritten_append (by decide) (by decide) rest
  constructor
  · intro h
    have hline : "LINE".toList <+: rewritten order .text index t :=
      List.IsPrefix.trans ⟨"$$".toList, rfl⟩ h
    obtain ⟨rest, rfl⟩ := isPrefix_of_isPrefix_rewritten (by decide) (by decide) hline
    rw [hletters] at h
    have hdollars : ['$', '$'] <+: rewritten order .text index rest :=
      (List.prefix_append_right_inj "LINE".toList).mp h
    obtain ⟨behind, hbehind, rfl⟩ := exists_cons_of_dollars_isPrefix_rewritten hdollars
    exact ⟨behind, hbehind, rfl⟩
  · rintro ⟨behind, hbehind, rfl⟩
    have hrewritten := hletters ('$' :: behind)
    rw [rewritten_dollar hbehind] at hrewritten
    exact ⟨rewritten order .text index behind, hrewritten.symm⟩

/-! ## The whole line among the signs -/

/-- If no line is typed, the rewritten replacement for text is cut into the signs of the plain
reading. -/
theorem signs_rewritten_of_not_typesLine (h : ¬ t.TypesLine) :
    signs (rewritten order .text index t) = plainSigns order .text index t := by
  have hview : (signs (rewritten order .text index t)).flatMap (fun sign => [sign])
      = (plainSigns order .text index t).flatMap fun sign => [sign] := by
    refine flatMap_signs_rewritten fun n rest hrest => ?_
    have hline : ¬ "LINE$$".toList <+: rewritten order .text n rest := by
      intro hline
      obtain ⟨behind, hbehind, rfl⟩ := line_isPrefix_rewritten_iff.mp hline
      exact h ⟨behind, hbehind, hrest⟩
    rw [signs_dollars hline]
    rfl
  simpa only [List.flatMap_singleton'] using hview

/-- The plain reading of a replacement for text knows no whole line. -/
theorem wholeLine_notMem_plainSigns : .wholeLine ∉ plainSigns order .text index t := by
  fun_induction plainSigns order .text index t with
  | case1 index => exact List.not_mem_nil
  | case2 index rest hdigits ih => simpa using ih
  | case3 index rest hdigits ih => simpa using ih
  | case4 index c rest hc hline ih => exact absurd hline.1 Scope.noConfusion
  | case5 index c rest hc hline hmarker ih => simpa using ih
  | case6 index c rest hc hline w hmarker behind hkind ih => simpa using ih
  | case7 index c rest hc hline w hmarker behind hkind ih => simpa using ih

/-- A typed line is read as the whole line. -/
theorem wholeLine_mem_signs (h : t.TypesLine) :
    .wholeLine ∈ signs (rewritten order .text index t) := by
  -- whatever stands in front of the first typed line is read as it is in the plain reading
  fun_induction plainSigns order .text index t with
  | case1 index =>
    obtain ⟨behind, -, hsuffix⟩ := h
    exact absurd (List.suffix_nil.mp hsuffix) (by simp)
  | case2 index rest hdigits ih =>
    rw [rewritten_dollar hdigits]
    by_cases hline : "LINE$$".toList <+: rewritten order .text index rest
    · obtain ⟨later, hlater⟩ := hline
      rw [← hlater]
      show .wholeLine ∈ signs (wholeLineMark ++ later)
      rw [signs_wholeLineMark]
      exact List.mem_cons_self
    · rw [signs_dollars hline]
      apply List.mem_cons_of_mem
      apply ih
      obtain ⟨behind, hbehind, hsuffix⟩ := h
      rcases List.suffix_cons_iff.mp hsuffix with hhere | hsuffix
      · rw [line_isPrefix_rewritten_iff] at hline
        exact absurd ⟨behind, hbehind, (List.cons.inj hhere).2.symm⟩ hline
      · exact ⟨behind, hbehind, hsuffix⟩
  | case3 index rest hdigits ih =>
    rw [rewritten_numeral hdigits]
    have hnumeral : signs ('$' :: ([] ++ rewritten order .text index rest))
        = .numeral ([] ++ rest.takeWhile isDigit)
          :: signs (rewritten order .text index (rest.dropWhile isDigit)) :=
      signs_dollar_rewritten (List.forall_mem_nil _) hdigits
    rw [List.nil_append, List.nil_append] at hnumeral
    rw [hnumeral]
    apply List.mem_cons_of_mem
    apply ih
    have hdollar : '$' ∉ rest.takeWhile isDigit :=
      notMem_of_forall_isDigit (fun d hd => List.mem_takeWhile_imp hd) (by decide)
    rw [← Text.typesLine_append hdollar, List.takeWhile_append_dropWhile]
    obtain ⟨behind, hbehind, hsuffix⟩ := h
    rcases List.suffix_cons_iff.mp hsuffix with hhere | hsuffix
    · -- a digit stands where the letters would have to begin
      rw [← (List.cons.inj hhere).2] at hdigits
      exact absurd (List.takeWhile_cons_of_neg (by decide)) hdigits
    · exact ⟨behind, hbehind, hsuffix⟩
  | case4 index c rest hc hline ih => exact absurd hline.1 Scope.noConfusion
  | case5 index c rest hc hline hmarker ih =>
    have hdollar : '$' ∉ [c] := by simpa using Ne.symm hc
    have hchar : signs (c :: rewritten order .text index rest)
        = .char c :: signs (rewritten order .text index rest) :=
      signs_append hdollar (rewritten order .text index rest)
    rw [rewritten_char hc hmarker hline, hchar]
    exact List.mem_cons_of_mem _ (ih ((Text.typesLine_append hdollar).mp h))
  | case6 index c rest hc hline w hmarker behind hkind ih =>
    have hbehind : w.marker ++ behind = c :: rest := marker_append_drop hmarker
    have hne : Text.decimal (index + 1) ++ behind.takeWhile isDigit ≠ [] :=
      List.append_ne_nil_of_left_ne_nil (Text.decimal_ne_nil (index + 1)) _
    have hname : '$' ∉ w.marker := by cases w <;> decide
    have hdollar : '$' ∉ behind.takeWhile isDigit :=
      notMem_of_forall_isDigit (fun d hd => List.mem_takeWhile_imp hd) (by decide)
    rw [← hbehind, Text.typesLine_append hname] at h
    rw [← hbehind, rewritten_marker, if_pos hkind, List.cons_append,
      signs_dollar_rewritten (Text.isDigit_of_mem_decimal (index + 1)) hne]
    apply List.mem_cons_of_mem
    apply ih
    rwa [← Text.typesLine_append hdollar, List.takeWhile_append_dropWhile]
  | case7 index c rest hc hline w hmarker behind hkind ih =>
    have hbehind : w.marker ++ behind = c :: rest := marker_append_drop hmarker
    have hname : '$' ∉ w.marker := by cases w <;> decide
    rw [← hbehind, Text.typesLine_append hname] at h
    rw [← hbehind, rewritten_marker, if_neg hkind, signs_append hname]
    exact List.mem_append_right _ (ih h)

/-- **A rewritten replacement for text is read as the whole line somewhere exactly if a line is
typed in it.** -/
theorem wholeLine_mem_signs_iff :
    .wholeLine ∈ signs (rewritten order .text index t) ↔ t.TypesLine := by
  constructor
  · intro h
    by_contra hline
    rw [signs_rewritten_of_not_typesLine hline] at h
    exact wholeLine_notMem_plainSigns h
  · exact wholeLine_mem_signs

/-! ## From signs to templates -/

/-- Joining literals neither makes the whole line nor loses it. -/
theorem wholeLine_mem_foldr_consAtom {tokens : List Token} :
    .wholeLine ∈ tokens.foldr consAtom [] ↔ .wholeLine ∈ tokens := by
  have hatoms : ∀ template : Template,
      .wholeLine ∈ template.flatMap Token.atoms ↔ .wholeLine ∈ template := by
    intro template
    rw [List.mem_flatMap]
    constructor
    · rintro ⟨token, htoken, hatom⟩
      cases token with
      | literal text => simp [Token.atoms] at hatom
      | capture number => simp [Token.atoms] at hatom
      | wholeLine => exact htoken
    · intro htoken
      exact ⟨.wholeLine, htoken, List.mem_singleton_self Token.wholeLine⟩
  rw [← hatoms, atoms_foldr_consAtom, hatoms]

/-- Only the sign of the whole line stands for the whole line. -/
theorem wholeLine_mem_map_token {list : List Sign} :
    .wholeLine ∈ list.map Sign.token ↔ .wholeLine ∈ list := by
  rw [List.mem_map]
  constructor
  · rintro ⟨sign, hsign, htoken⟩
    cases sign with
    | wholeLine => exact hsign
    | char c => exact absurd htoken (by simp [Sign.token])
    | numeral digits => exact absurd htoken (by simp [Sign.token])
  · intro hsign
    exact ⟨.wholeLine, hsign, rfl⟩

/-- The template of a replacement for text holds the whole line exactly if a line is typed in
the replacement. -/
theorem wholeLine_mem_iff_typesLine {template : Template}
    (h : ofReplacement t order .text = .ok template) :
    .wholeLine ∈ template ↔ t.TypesLine := by
  rw [ofReplacement_eq] at h
  obtain ⟨-, rfl⟩ := ofSigns_eq_ok_iff.mp h
  rw [wholeLine_mem_foldr_consAtom, wholeLine_mem_map_token, wholeLine_mem_signs_iff]

/-! ## Replacements that name nothing -/

/-- In a text that names nothing the plain reading for text finds nothing but characters. -/
theorem plainSigns_of_namesNothing (h : t.NamesNothing) :
    plainSigns order .text index t = t.map .char := by
  fun_induction plainSigns order .text index t with
  | case1 index => rfl
  | case2 index rest hdigits ih =>
    rw [ih (h.suffix (List.suffix_cons '$' rest)), List.map_cons]
  | case3 index rest hdigits ih =>
    cases rest with
    | nil => exact absurd rfl hdigits
    | cons d rest =>
      have hd : isDigit d = true := by
        by_contra hd
        exact hdigits (List.takeWhile_cons_of_neg hd)
      exact absurd ⟨[], rest, rfl⟩ (h.digit d hd)
  | case4 index c rest hc hline ih => exact absurd hline.1 Scope.noConfusion
  | case5 index c rest hc hline hmarker ih =>
    rw [ih (h.suffix (List.suffix_cons c rest)), List.map_cons]
  | case6 index c rest hc hline w hmarker behind hkind ih =>
    have hbehind : w.marker ++ behind = c :: rest := marker_append_drop hmarker
    exact absurd ⟨[], behind, hbehind⟩ (h.marker w)
  | case7 index c rest hc hline w hmarker behind hkind ih =>
    have hbehind : w.marker ++ behind = c :: rest := marker_append_drop hmarker
    exact absurd ⟨[], behind, hbehind⟩ (h.marker w)

/-- A text that is read as its characters is rendered as it is. -/
theorem render_map_char (t found : Text) (groups : Groups) :
    render ((t.map Sign.char).map Sign.token) found groups = t := by
  induction t with
  | nil => rfl
  | cons c t ih =>
    show [c] ++ render ((t.map Sign.char).map Sign.token) found groups = c :: t
    rw [ih, List.singleton_append]

/-- A replacement for text that names nothing and in which no line is typed is accepted, and is
rendered as it is. -/
theorem exists_ofReplacement_of_namesNothing (order : List Wildcard) (h : t.NamesNothing)
    (hline : ¬ t.TypesLine) :
    ∃ template, ofReplacement t order .text = .ok template ∧
      ∀ found groups, template.render found groups = t := by
  have hsigns : signs (rewritten order .text 0 t) = t.map .char := by
    rw [signs_rewritten_of_not_typesLine hline, plainSigns_of_namesNothing h]
  refine ⟨((t.map Sign.char).map Sign.token).foldr consAtom [], ?_, ?_⟩
  · rw [ofReplacement_eq, ofText, hsigns]
    apply ofSigns_eq_ok
    intro digits hmem
    simp at hmem
  · intro found groups
    rw [render_foldr_consAtom, render_map_char]

end Template

/-! ## Rules for text -/

namespace Matcher

/-- **The replacement of a rule for text.**  Its template holds the whole line exactly if the
text `$LINE$` stands in it with no digit right behind.  If it holds no such text, no dollar in
front of a digit and no wildcard marker, then the rule has a matcher as soon as it has something
to search for, and everything that the matcher finds is replaced by the replacement as it is
written, with all its dollars. -/
theorem template_of_text_rule {rule : Rule} {replacement : Text} {deletes : Bool}
    (hscope : rule.scope = .text) (haction : rule.action = .replace replacement deletes) :
    (∀ matcher, ofRule rule = .ok matcher →
      (.wholeLine ∈ matcher.template ↔ replacement.TypesLine)) ∧
    (replacement.NamesNothing → ¬ "$LINE$".toList <:+: replacement →
      ∀ pattern, Pattern.ofSearch? rule.body = some pattern →
        ∃ matcher, ofRule rule = .ok matcher ∧
          ∀ found groups, matcher.render found groups = replacement) := by
  constructor
  · intro matcher hmatcher
    have htemplate := templateOf_of_ofRule hmatcher
    rw [templateOf, haction] at htemplate
    simp only [hscope] at htemplate
    exact Template.wholeLine_mem_iff_typesLine htemplate
  · intro hnames hline pattern hpattern
    have htyped : ¬ replacement.TypesLine := by
      rintro ⟨behind, -, hsuffix⟩
      exact hline (List.IsInfix.trans ⟨[], behind, rfl⟩ hsuffix.isInfix)
    obtain ⟨template, htemplate, hrender⟩ :=
      Template.exists_ofReplacement_of_namesNothing pattern.wildcards hnames htyped
    refine ⟨⟨rule, pattern, template⟩, ?_, ?_⟩
    · simp [ofRule, hpattern, templateOf, haction, hscope, htemplate]
    · intro found groups
      have hreplaces : rule.replaces = true := by rw [Rule.replaces, haction]
      rw [render, if_pos hreplaces]
      exact hrender found groups

/-- The dollars of a price stay dollars: one in front of a blank, one at the end. -/
theorem template_of_text_rule_price :
    Text.NamesNothing "$ 5, or $$".toList ∧
    ∃ matcher, ofRule ⟨"price".toList, .text, .replace "$ 5, or $$".toList false, 1, []⟩
        = .ok matcher ∧
      .wholeLine ∉ matcher.template ∧
      ∀ found groups, matcher.render found groups = "$ 5, or $$".toList := by
  have hfive : ∀ d ∈ "$ 5, or $$".toList, isDigit d = true → d = '5' := by simp [isDigit]
  have hnames : Text.NamesNothing "$ 5, or $$".toList := by
    refine Text.NamesNothing.of_forall_mem ?_ fun w => by cases w <;> decide
    intro d hd hdigit
    rw [hfive d hd hdigit]
    decide
  have hline : ¬ "$LINE$".toList <:+: "$ 5, or $$".toList := by decide
  obtain ⟨hwhole, hliteral⟩ :=
    @template_of_text_rule ⟨"price".toList, .text, .replace "$ 5, or $$".toList false, 1, []⟩
      "$ 5, or $$".toList false rfl rfl
  obtain ⟨matcher, hmatcher, hrender⟩ := hliteral hnames hline _ rfl
  refine ⟨hnames, matcher, hmatcher, ?_, hrender⟩
  rw [hwhole matcher hmatcher]
  rintro ⟨behind, -, hsuffix⟩
  exact hline (List.IsInfix.trans ⟨[], behind, rfl⟩ hsuffix.isInfix)

/-- A typed line is taken for the mark of the whole line: the replacement `$LINE$` of a rule for
text, which names nothing, does not put `$LINE$` in the place of what is found. -/
theorem render_typed_line :
    ∃ matcher, ofRule ⟨"a".toList, .text, .replace "$LINE$".toList false, 1,
        "a///$LINE$".toList⟩ = .ok matcher ∧
      Text.NamesNothing "$LINE$".toList ∧
      .wholeLine ∈ matcher.template ∧
      matcher.render "a".toList [] = "a".toList := by
  refine ⟨⟨⟨"a".toList, .text, .replace "$LINE$".toList false, 1, "a///$LINE$".toList⟩,
    _, [.wholeLine]⟩, rfl, ?_, List.mem_singleton_self Token.wholeLine, rfl⟩
  exact Text.NamesNothing.of_forall_mem (by simp [isDigit]) fun w => by cases w <;> decide

end Matcher

end RuleSweep
