/-
# The plain reading of a replacement

A replacement is rewritten three times and then cut into signs.  The plain reading
(`plainSigns`) goes through it once, from left to right, and rewrites nothing: a dollar with
digits is a numeral and any other dollar is a dollar, a wildcard marker whose wildcard has
its kind is a numeral together with the digits behind it, and `[line]` is the whole line
where it may be.

* `signs_rewritten` : both give the same signs, unless the replacement holds the text
  `$LINE`.  Behind a doubled dollar that text could be taken for the mark of the whole line.
* `eq_foldr_consAtom_iff` : there is one template that is made of given tokens, character by
  character, and holds no empty literal and no two literals side by side.
* `ofReplacement_eq_plain` : the template of a replacement is the one that is made in this
  way of the tokens of the plain reading.
-/
import Mathlib.Data.List.Chain
import Mathlib.Data.List.TakeWhile
import RuleSweep.Proofs.Template.Rewriting
import RuleSweep.Proofs.Template.Signs

namespace RuleSweep

namespace Template

/-! ## The plain reading -/

/-- The signs of a replacement for a search of the given scope whose wildcards are `order`,
read from left to right, when `index` wildcard markers have been read before. -/
def plainSigns (order : List Wildcard) (scope : Scope) (index : Nat) : Text → List Sign
  | [] => []
  | c :: rest =>
    if c = '$' then
      if rest.takeWhile isDigit = [] then .char '$' :: plainSigns order scope index rest
      else
        .numeral (rest.takeWhile isDigit)
          :: plainSigns order scope index (rest.dropWhile isDigit)
    else if scope = .line ∧ order = [] ∧ lineMark <+: c :: rest then
      .wholeLine :: plainSigns order scope index ((c :: rest).drop lineMark.length)
    else
      match markerAt? (c :: rest) with
      | none => .char c :: plainSigns order scope index rest
      | some w =>
        let behind := (c :: rest).drop w.marker.length
        if order[index]? = some w then
          .numeral (Text.decimal (index + 1) ++ behind.takeWhile isDigit)
            :: plainSigns order scope (index + 1) (behind.dropWhile isDigit)
        else w.marker.map .char ++ plainSigns order scope (index + 1) behind
termination_by t => t.length
decreasing_by
  all_goals simp only [List.length_cons, List.length_drop, Wildcard.length_marker]
  · omega
  · have hdrop := (List.dropWhile_suffix isDigit (l := rest)).length_le
    omega
  · have hline : lineMark.length = 6 := rfl
    omega
  · omega
  · have hdrop := (List.dropWhile_suffix isDigit (l := behind)).length_le
    simp only [behind, List.length_drop, Wildcard.length_marker, List.length_cons] at hdrop
    omega
  · omega

/-- Behind all digits stands no digit. -/
theorem takeWhile_dropWhile (t : Text) : (t.dropWhile isDigit).takeWhile isDigit = [] := by
  induction t with
  | nil => rfl
  | cons d t ih =>
    by_cases hd : isDigit d = true
    · rw [List.dropWhile_cons_of_pos hd, ih]
    · rw [List.dropWhile_cons_of_neg hd, List.takeWhile_cons_of_neg hd]

section Rewritten

variable {order : List Wildcard} {scope : Scope} {index : Nat} {t : Text}

/-- A replacement that begins with no digit begins with none when it is rewritten. -/
theorem takeWhile_rewritten (ht : t.takeWhile isDigit = []) :
    (rewritten order scope index t).takeWhile isDigit = [] := by
  cases hrewritten : rewritten order scope index t with
  | nil => rfl
  | cons d rest =>
    by_cases hd : isDigit d = true
    · have hdigit : ∀ e ∈ [d], isDigit e = true := by simpa using hd
      have hfirst : [d] <+: rewritten order scope index t := ⟨rest, hrewritten.symm⟩
      obtain ⟨tail, rfl⟩ := isPrefix_of_isPrefix_rewritten
        (notMem_of_forall_isDigit hdigit (by decide))
        (notMem_of_forall_isDigit hdigit (by decide)) hfirst
      simp [hd] at ht
    · rw [List.takeWhile_cons_of_neg hd]

/-- A dollar and digits in front of a rewritten replacement are read as one numeral with the
digits that the replacement begins with. -/
theorem signs_dollar_rewritten {digits : Text} (hdigits : ∀ d ∈ digits, isDigit d = true)
    (hne : digits ++ t.takeWhile isDigit ≠ []) :
    signs ('$' :: (digits ++ rewritten order scope index t))
      = .numeral (digits ++ t.takeWhile isDigit)
        :: signs (rewritten order scope index (t.dropWhile isDigit)) := by
  have hrun : ∀ d ∈ t.takeWhile isDigit, isDigit d = true := fun d hd => List.mem_takeWhile_imp hd
  have hall : ∀ d ∈ digits ++ t.takeWhile isDigit, isDigit d = true := by
    intro d hd
    obtain hd | hd := List.mem_append.mp hd
    · exact hdigits d hd
    · exact hrun d hd
  have hdollar : '$' ∉ t.takeWhile isDigit := notMem_of_forall_isDigit hrun (by decide)
  have hbracket : '[' ∉ t.takeWhile isDigit := notMem_of_forall_isDigit hrun (by decide)
  have hbehind : (rewritten order scope index (t.dropWhile isDigit)).takeWhile isDigit = [] :=
    takeWhile_rewritten (takeWhile_dropWhile t)
  conv_lhs => rw [← List.takeWhile_append_dropWhile (p := isDigit) (l := t)]
  rw [rewritten_append hdollar hbracket, ← List.append_assoc, signs_numeral hne hall hbehind]

/-- **What is seen of the signs of a rewritten replacement is what is seen of the plain
reading**, if of a doubled dollar no more is seen than of a dollar. -/
theorem flatMap_signs_rewritten {β : Type} {view : Sign → List β}
    (h : ∀ index rest, '$' :: rest <:+ t →
      (signs ('$' :: '$' :: rewritten order scope index rest)).flatMap view
        = view (.char '$') ++ (signs (rewritten order scope index rest)).flatMap view) :
    (signs (rewritten order scope index t)).flatMap view
      = (plainSigns order scope index t).flatMap view := by
  -- in every case the rest is an end of `t`, so its dollars are dollars of `t`
  fun_induction plainSigns order scope index t with
  | case1 index =>
    unfold rewritten echoLine
    split <;> rfl
  | case2 index rest hdigits ih =>
    have hrest : rest <:+ '$' :: rest := List.suffix_cons '$' rest
    rw [rewritten_dollar hdigits, h index rest (List.suffix_refl _),
      ih fun n later hlater => h n later (hlater.trans hrest), List.flatMap_cons]
  | case3 index rest hdigits ih =>
    have hrest : rest.dropWhile isDigit <:+ '$' :: rest :=
      (List.dropWhile_suffix isDigit).trans (List.suffix_cons '$' rest)
    have hnumeral : signs ('$' :: rewritten order scope index rest)
        = .numeral (rest.takeWhile isDigit)
          :: signs (rewritten order scope index (rest.dropWhile isDigit)) :=
      signs_dollar_rewritten (List.forall_mem_nil _) hdigits
    rw [rewritten_numeral hdigits, hnumeral, List.flatMap_cons,
      ih fun n later hlater => h n later (hlater.trans hrest), List.flatMap_cons]
  | case4 index c rest hc hline ih =>
    obtain ⟨rfl, rfl, behind, hbehind⟩ := hline
    have hrest : behind <:+ c :: rest := ⟨lineMark, hbehind⟩
    rw [← hbehind, List.drop_left] at ih
    rw [← hbehind, List.drop_left, rewritten_line, signs_wholeLineMark, List.flatMap_cons,
      ih fun n later hlater => h n later (hlater.trans hrest), List.flatMap_cons]
  | case5 index c rest hc hline hmarker ih =>
    have hrest : rest <:+ c :: rest := List.suffix_cons c rest
    have hdollar : '$' ∉ [c] := by simpa using Ne.symm hc
    have hchar : signs (c :: rewritten order scope index rest)
        = .char c :: signs (rewritten order scope index rest) :=
      signs_append hdollar (rewritten order scope index rest)
    rw [rewritten_char hc hmarker hline, hchar, List.flatMap_cons,
      ih fun n later hlater => h n later (hlater.trans hrest), List.flatMap_cons]
  | case6 index c rest hc hline w hmarker behind hkind ih =>
    have hbehind : w.marker ++ behind = c :: rest := marker_append_drop hmarker
    have hrest : behind.dropWhile isDigit <:+ c :: rest :=
      (List.dropWhile_suffix isDigit).trans ⟨w.marker, hbehind⟩
    have hne : Text.decimal (index + 1) ++ behind.takeWhile isDigit ≠ [] :=
      List.append_ne_nil_of_left_ne_nil Nat.toDigits_ne_nil _
    rw [← hbehind, rewritten_marker, if_pos hkind, List.cons_append,
      signs_dollar_rewritten (Text.isDigit_of_mem_decimal (index + 1)) hne, List.flatMap_cons,
      ih fun n later hlater => h n later (hlater.trans hrest), List.flatMap_cons]
  | case7 index c rest hc hline w hmarker behind hkind ih =>
    have hbehind : w.marker ++ behind = c :: rest := marker_append_drop hmarker
    have hrest : behind <:+ c :: rest := ⟨w.marker, hbehind⟩
    have hdollar : '$' ∉ w.marker := by cases w <;> decide
    rw [← hbehind, rewritten_marker, if_neg hkind, signs_append hdollar, List.flatMap_append,
      ih fun n later hlater => h n later (hlater.trans hrest), List.flatMap_append]

/-- Of two dollars nothing is seen, whatever stands behind them, if nothing is seen of the
characters in `$LINE` and of the mark of the whole line. -/
theorem flatMap_signs_dollars {β : Type} {view : Sign → List β}
    (hwhole : view .wholeLine = []) (hchars : ∀ c ∈ "$LINE".toList, view (.char c) = [])
    (t : Text) :
    (signs ('$' :: '$' :: t)).flatMap view = (signs t).flatMap view := by
  by_cases hmark : "LINE$$".toList <+: t
  · -- the two dollars at the end of the mark are two dollars in front of what comes later
    obtain ⟨later, rfl⟩ := hmark
    have hline : signs ('$' :: '$' :: ("LINE$$".toList ++ later)) = .wholeLine :: signs later :=
      signs_wholeLineMark later
    have hletters : signs ("LINE$$".toList ++ later)
        = "LINE".toList.map .char ++ signs ('$' :: '$' :: later) :=
      signs_append (show '$' ∉ "LINE".toList by decide) ('$' :: '$' :: later)
    have hnone : ("LINE".toList.map Sign.char).flatMap view = [] := by
      rw [List.flatMap_map, List.flatMap_eq_nil_iff]
      exact fun c hc => hchars c (List.mem_cons_of_mem '$' hc)
    rw [hline, List.flatMap_cons, hwhole, hletters, List.flatMap_append, hnone,
      flatMap_signs_dollars hwhole hchars later]
  · rw [signs_dollars hmark, List.flatMap_cons, hchars '$' List.mem_cons_self, List.nil_append]
termination_by t.length

/-- **The rewritten replacement is cut into the signs of the plain reading.** -/
theorem signs_rewritten (h : ¬ "$LINE".toList <:+: t) :
    signs (rewritten order scope index t) = plainSigns order scope index t := by
  have hview : (signs (rewritten order scope index t)).flatMap (fun sign => [sign])
      = (plainSigns order scope index t).flatMap fun sign => [sign] := by
    refine flatMap_signs_rewritten fun n rest hrest => ?_
    have hline : ¬ "LINE$$".toList <+: rewritten order scope n rest := by
      intro hmark
      have hrewritten : "LINE".toList <+: rewritten order scope n rest :=
        List.IsPrefix.trans ⟨"$$".toList, rfl⟩ hmark
      have hbefore := isPrefix_of_isPrefix_rewritten (by decide) (by decide) hrewritten
      have hdollar : "$LINE".toList <+: '$' :: rest := List.cons_prefix_cons.mpr ⟨rfl, hbefore⟩
      exact h (hdollar.isInfix.trans hrest.isInfix)
    rw [signs_dollars hline]
    rfl
  simpa only [List.flatMap_singleton'] using hview

/-- The characters of the plain reading are characters of the text. -/
theorem mem_of_char_mem_plainSigns {c : Char} (h : .char c ∈ plainSigns order scope index t) :
    c ∈ t := by
  fun_induction plainSigns order scope index t with
  | case1 index => exact absurd h List.not_mem_nil
  | case2 index rest hdigits ih =>
    rw [List.mem_cons, Sign.char.injEq] at h
    exact List.mem_cons.mpr (h.imp_right ih)
  | case3 index rest hdigits ih =>
    have hrest : .char c ∈ plainSigns order scope index (rest.dropWhile isDigit) := by
      simpa using h
    exact List.mem_cons_of_mem '$' ((List.dropWhile_sublist isDigit).subset (ih hrest))
  | case4 index d rest hd hline ih =>
    have hrest : .char c ∈ plainSigns order scope index ((d :: rest).drop lineMark.length) := by
      simpa using h
    exact List.mem_of_mem_drop (ih hrest)
  | case5 index d rest hd hline hmarker ih =>
    rw [List.mem_cons, Sign.char.injEq] at h
    exact List.mem_cons.mpr (h.imp_right ih)
  | case6 index d rest hd hline w hmarker behind hkind ih =>
    have hrest : .char c ∈ plainSigns order scope (index + 1) (behind.dropWhile isDigit) := by
      simpa using h
    exact List.mem_of_mem_drop ((List.dropWhile_sublist isDigit).subset (ih hrest))
  | case7 index d rest hd hline w hmarker behind hkind ih =>
    rw [List.mem_append, List.mem_map] at h
    rcases h with ⟨e, he, hchar⟩ | hrest
    · rw [← Sign.char.inj hchar, ← marker_append_drop hmarker]
      exact List.mem_append_left _ he
    · exact List.mem_of_mem_drop (ih hrest)

/-- **The characters among the signs of a rewritten replacement are characters of the
replacement.**  The letters of a mark that was not read as one are there if `$LINE` is. -/
theorem mem_of_char_mem_signs {c : Char}
    (h : .char c ∈ signs (rewritten order scope index t)) : c ∈ t := by
  by_cases hline : "$LINE".toList <:+: t
  · by_cases hc : c ∈ "$LINE".toList
    · exact hline.subset hc
    · -- of the other characters the rewritten replacement shows what the plain reading shows
      let view : Sign → List Sign := fun sign => if sign = .char c then [sign] else []
      have hview : (signs (rewritten order scope index t)).flatMap view
          = (plainSigns order scope index t).flatMap view := by
        have hchars : ∀ d ∈ "$LINE".toList, view (.char d) = [] := by
          intro d hd
          apply if_neg
          rw [Sign.char.injEq]
          rintro rfl
          exact hc hd
        refine flatMap_signs_rewritten fun n rest _ => ?_
        rw [flatMap_signs_dollars (if_neg Sign.noConfusion) hchars,
          hchars '$' List.mem_cons_self, List.nil_append]
      have hseen : .char c ∈ (signs (rewritten order scope index t)).flatMap view :=
        List.mem_flatMap.mpr ⟨.char c, h, by simp [view]⟩
      rw [hview, List.mem_flatMap] at hseen
      obtain ⟨sign, hsign, hmem⟩ := hseen
      have heq : sign = .char c := by
        by_contra hne
        simp [view, hne] at hmem
      rw [heq] at hsign
      exact mem_of_char_mem_plainSigns hsign
  · rw [signs_rewritten hline] at h
    exact mem_of_char_mem_plainSigns h

end Rewritten

end Template

/-! ## Joined literals -/

namespace Token

/-- A token that is literal text. -/
def IsLiteral : Token → Prop
  | .literal _ => True
  | _ => False

/-- The tokens of which a token is made: a literal is made of its characters. -/
def atoms : Token → List Token
  | .literal text => text.map fun c => .literal [c]
  | token => [token]

end Token

namespace Template

/-- A template whose literals are joined: none is empty, and no two stand side by side. -/
structure Joined (template : Template) : Prop where
  /-- No literal is empty. -/
  nonempty : .literal [] ∉ template
  /-- Of two neighbours at most one is literal. -/
  apart : template.IsChain fun first second => ¬ (first.IsLiteral ∧ second.IsLiteral)

/-- A token that is not literal keeps the literals joined. -/
theorem Joined.cons {token : Token} {template : Template} (h : Joined template)
    (htoken : ¬ token.IsLiteral) : Joined (token :: template) where
  nonempty := by
    rw [List.mem_cons, not_or]
    refine ⟨?_, h.nonempty⟩
    rintro rfl
    exact htoken trivial
  apart := List.isChain_cons.mpr ⟨fun _ _ hboth => htoken hboth.1, h.apart⟩

/-- A character in front of a template that begins with no literal is a literal of its
own. -/
theorem consChar_of_not_isLiteral {template : Template}
    (h : ∀ first ∈ template.head?, ¬ first.IsLiteral) (c : Char) :
    consChar c template = .literal [c] :: template := by
  unfold consChar
  split
  · next text rest => exact absurd trivial (h (.literal text) rfl)
  · rfl

/-- A character in front keeps the literals joined. -/
theorem Joined.consChar {template : Template} (h : Joined template) (c : Char) :
    Joined (Template.consChar c template) := by
  by_cases hfirst : ∀ first ∈ template.head?, ¬ first.IsLiteral
  · rw [consChar_of_not_isLiteral hfirst]
    refine ⟨by simpa using h.nonempty, List.isChain_cons.mpr ⟨?_, h.apart⟩⟩
    exact fun first hmem hboth => hfirst first hmem hboth.2
  · match template, h with
    | .literal text :: rest, h =>
      obtain ⟨hnext, hrest⟩ := List.isChain_cons.mp h.apart
      have hnonempty := List.not_mem_of_not_mem_cons h.nonempty
      refine ⟨?_, List.isChain_cons.mpr ⟨hnext, hrest⟩⟩
      simpa [Template.consChar] using hnonempty
    | [], _ => simp at hfirst
    | .capture _ :: _, _ => simp [Token.IsLiteral] at hfirst
    | .wholeLine :: _, _ => simp [Token.IsLiteral] at hfirst

/-- The characters of a literal, put in front of a template that begins with none, are
that literal. -/
theorem foldr_consChar {text : Text} {template : Template} (hne : text ≠ [])
    (h : ∀ first ∈ template.head?, ¬ first.IsLiteral) :
    text.foldr consChar template = .literal text :: template := by
  induction text with
  | nil => exact absurd rfl hne
  | cons c text ih =>
    by_cases htext : text = []
    · rw [htext]
      exact consChar_of_not_isLiteral h c
    · rw [List.foldr_cons, ih htext]
      rfl

/-- A template whose literals are joined is what its atoms make when they are joined. -/
theorem Joined.foldr_consAtom {template : Template} (h : Joined template) :
    (template.flatMap Token.atoms).foldr consAtom [] = template := by
  induction template with
  | nil => rfl
  | cons token rest ih =>
    obtain ⟨hnext, hrest⟩ := List.isChain_cons.mp h.apart
    have hjoined := ih ⟨List.not_mem_of_not_mem_cons h.nonempty, hrest⟩
    rw [List.flatMap_cons, List.foldr_append, hjoined]
    cases token with
    | literal text =>
      have hne : text ≠ [] := by
        rintro rfl
        exact h.nonempty List.mem_cons_self
      have hfirst : ∀ first ∈ rest.head?, ¬ first.IsLiteral := fun first hmem hliteral =>
        hnext first hmem ⟨trivial, hliteral⟩
      rw [Token.atoms, List.foldr_map]
      exact foldr_consChar hne hfirst
    | capture number => rfl
    | wholeLine => rfl

/-- Putting tokens one in front of the other joins the literals. -/
theorem joined_foldr_consAtom (tokens : List Token) : Joined (tokens.foldr consAtom []) := by
  induction tokens with
  | nil => exact ⟨List.not_mem_nil, .nil⟩
  | cons token tokens ih =>
    rw [List.foldr_cons]
    cases token with
    | literal text =>
      rw [consAtom]
      induction text with
      | nil => exact ih
      | cons c text ih => exact ih.consChar c
    | capture number => exact ih.cons id
    | wholeLine => exact ih.cons id

/-- A character in front of a template is made of itself. -/
theorem atoms_consChar (c : Char) (template : Template) :
    (consChar c template).flatMap Token.atoms
      = .literal [c] :: template.flatMap Token.atoms := by
  unfold consChar
  split <;> rfl

/-- A template is made of the tokens that were put one in front of the other. -/
theorem atoms_foldr_consAtom (tokens : List Token) :
    (tokens.foldr consAtom []).flatMap Token.atoms = tokens.flatMap Token.atoms := by
  induction tokens with
  | nil => rfl
  | cons token tokens ih =>
    rw [List.foldr_cons, List.flatMap_cons, ← ih]
    cases token with
    | literal text =>
      rw [consAtom, Token.atoms]
      induction text with
      | nil => rfl
      | cons c text ih =>
        rw [List.foldr_cons, atoms_consChar, ih, List.map_cons, List.cons_append]
    | capture number => rfl
    | wholeLine => rfl

/-- Atoms that are put one in front of the other give the one template with joined literals
that is made of them. -/
theorem eq_foldr_consAtom_iff {tokens : List Token} (htokens : tokens.flatMap Token.atoms = tokens)
    {template : Template} :
    template = tokens.foldr consAtom [] ↔
      template.Joined ∧ template.flatMap Token.atoms = tokens := by
  constructor
  · rintro rfl
    exact ⟨joined_foldr_consAtom tokens, (atoms_foldr_consAtom tokens).trans htokens⟩
  · rintro ⟨hjoined, rfl⟩
    exact hjoined.foldr_consAtom.symm

/-- The token of a sign is made of itself. -/
theorem atoms_map_token (list : List Sign) :
    (list.map Sign.token).flatMap Token.atoms = list.map Sign.token := by
  induction list with
  | nil => rfl
  | cons sign list ih =>
    rw [List.map_cons, List.flatMap_cons, ih]
    cases sign <;> rfl

/-! ## The template of a replacement -/

/-- **A replacement without the text `$LINE` whose numerals are short enough is accepted,
and its template is the one with joined literals that is made of the tokens of the plain
reading.** -/
theorem ofReplacement_eq_plain (replacement : Text) (order : List Wildcard) (scope : Scope)
    (hline : ¬ "$LINE".toList <:+: replacement)
    (hshort : ∀ digits, .numeral digits ∈ plainSigns order scope 0 replacement →
      digits.length ≤ maxNumeralDigits) :
    ∃ template, ofReplacement replacement order scope = .ok template ∧
      ∀ other : Template, other = template ↔ other.Joined ∧
        other.flatMap Token.atoms = (plainSigns order scope 0 replacement).map Sign.token := by
  rw [← signs_rewritten hline] at hshort ⊢
  exact ⟨_, ofSigns_eq_ok hshort, fun _ => eq_foldr_consAtom_iff (atoms_map_token _)⟩

/-- The first dollar is doubled, the second one stands with a digit, and the third one
stands in front of a marker; `[line]` is no line, since there is a wildcard. -/
theorem ofReplacement_eq_plain_dollars :
    ofReplacement "$$5$[num]5[line]".toList [.number] .line
      = .ok [.literal ['$'], .capture 5, .literal ['$'], .capture 15,
          .literal "[line]".toList] := by
  have hsigns : plainSigns [.number] .line 0 "$$5$[num]5[line]".toList
      = [.char '$', .numeral ['5'], .char '$', .numeral ['1', '5']]
        ++ "[line]".toList.map .char := by cbv
  have hshort : ∀ digits,
      .numeral digits ∈ plainSigns [.number] .line 0 "$$5$[num]5[line]".toList →
        digits.length ≤ maxNumeralDigits := by
    intro digits hmem
    rw [hsigns] at hmem
    have hdigits : digits = ['5'] ∨ digits = ['1', '5'] := by simpa using hmem
    obtain rfl | rfl := hdigits <;> decide
  obtain ⟨template, htemplate, hplain⟩ :=
    ofReplacement_eq_plain "$$5$[num]5[line]".toList [.number] .line (by decide) hshort
  have hjoined : Joined [.literal ['$'], .capture 5, .literal ['$'], .capture 15,
      .literal "[line]".toList] := ⟨by simp, by simp [Token.IsLiteral]⟩
  rw [htemplate]
  exact congrArg Except.ok ((hplain _).mpr ⟨hjoined, by rw [hsigns]; rfl⟩).symm

end Template

end RuleSweep
