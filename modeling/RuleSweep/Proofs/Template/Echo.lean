/-
# Templates that put back what was found

A replacement half that is the same text as the search half puts back what was found: each of
its markers becomes the capture of the wildcard that it stands for on the other side
(`plainSigns_eq_echoSigns`), and captures and characters, one after the other, are the text that
the pieces of the search half have read: `render_echoSigns`.  For this the text may hold no
dollar, and no digit right behind a marker, which would be taken for a digit of the capture's
number.
-/
import RuleSweep.Proofs.Pattern.Reading
import RuleSweep.Proofs.Template.Plain

namespace RuleSweep

/-- A text that, as the replacement of itself, is read as it was searched for. -/
structure Text.IsEcho (t : Text) : Prop where
  /-- No dollar begins a capture or stands for another one. -/
  dollar : '$' ∉ t
  /-- No digit stands right behind a wildcard marker. -/
  digit : ∀ (w : Wildcard) (d : Char), isDigit d = true → ¬ w.marker ++ [d] <:+: t
  /-- The number of its wildcards has no more digits than are read.  The number of characters
  of any text that can be stored has far less. -/
  few : (Text.decimal (Piece.wildcards (Piece.ofText t)).length).length ≤ maxNumeralDigits

namespace Template

/-- The signs that put back what pieces find, when `index` wildcards stand in front of them. -/
def echoSigns (index : Nat) : List Piece → List Sign
  | [] => []
  | .char c :: rest => .char c :: echoSigns index rest
  | .wildcard _ :: rest => .numeral (Text.decimal (index + 1)) :: echoSigns (index + 1) rest

/-- The numerals among these signs are the numbers of the wildcards. -/
theorem exists_number_of_mem_echoSigns {index : Nat} {pieces : List Piece} {digits : Text}
    (h : .numeral digits ∈ echoSigns index pieces) :
    ∃ n ≤ index + (Piece.wildcards pieces).length, digits = Text.decimal n := by
  induction pieces generalizing index with
  | nil => exact absurd h List.not_mem_nil
  | cons piece pieces ih =>
    cases piece with
    | char c =>
      rw [echoSigns, List.mem_cons] at h
      rcases h with hsign | hlater
      · exact absurd hsign Sign.noConfusion
      · exact ih hlater
    | wildcard w =>
      rw [echoSigns, List.mem_cons] at h
      rw [Piece.wildcards, List.length_cons]
      rcases h with hsign | hlater
      · refine ⟨index + 1, by omega, ?_⟩
        rw [Sign.numeral.injEq] at hsign
        exact hsign
      · obtain ⟨n, hn, hdigits⟩ := ih hlater
        exact ⟨n, by omega, hdigits⟩

/-! ## Reading the replacement -/

/-- Behind a marker of a text without digits behind its markers stands no digit. -/
theorem takeWhile_isDigit_behind {w : Wildcard} {t : Text}
    (h : ∀ d, isDigit d = true → ¬ w.marker ++ [d] <:+: w.marker ++ t) :
    t.takeWhile isDigit = [] := by
  cases t with
  | nil => rfl
  | cons d t =>
    apply List.takeWhile_cons_of_neg
    intro hd
    apply h d hd
    refine ⟨[], t, ?_⟩
    rw [List.nil_append, List.append_assoc, List.singleton_append]

/-- **The replacement that is the search half itself is read as what puts back what its pieces
find.** -/
theorem plainSigns_eq_echoSigns {order : List Wildcard} {scope : Scope} {index : Nat} {t : Text}
    (hscope : scope = .text) (hdollar : '$' ∉ t)
    (hdigit : ∀ (w : Wildcard) (d : Char), isDigit d = true → ¬ w.marker ++ [d] <:+: t)
    (horder : order.drop index = Piece.wildcards (Piece.ofText t)) :
    plainSigns order scope index t = echoSigns index (Piece.ofText t) := by
  fun_induction plainSigns order scope index t with
  | case1 index => rfl
  | case2 index rest _ _ => exact absurd List.mem_cons_self hdollar
  | case3 index rest _ _ => exact absurd List.mem_cons_self hdollar
  | case4 index c rest _ hline _ =>
    rw [hscope] at hline
    exact absurd hline.1 Scope.noConfusion
  | case5 index c rest hc hline hmarker ih =>
    have hrest : rest <:+ c :: rest := List.suffix_cons c rest
    rw [Piece.ofText_cons hmarker, Piece.wildcards] at horder
    rw [Piece.ofText_cons hmarker, echoSigns, ih]
    · exact fun hmem => hdollar (List.mem_cons_of_mem c hmem)
    · exact fun w d hd hoccurs => hdigit w d hd (hoccurs.trans hrest.isInfix)
    · exact horder
  | case6 index c rest hc hline w hmarker behind hkind ih =>
    have hbehind : w.marker ++ behind = c :: rest := marker_append_drop hmarker
    rw [← hbehind] at hdollar hdigit horder ⊢
    have hrest : behind <:+ w.marker ++ behind := List.suffix_append w.marker behind
    have hnone : behind.takeWhile isDigit = [] := takeWhile_isDigit_behind (hdigit w)
    have hall : behind.dropWhile isDigit = behind := by
      have happend := List.takeWhile_append_dropWhile (p := isDigit) (l := behind)
      rwa [hnone, List.nil_append] at happend
    rw [Piece.ofText_marker, Piece.wildcards] at horder
    rw [hall] at ih
    rw [hnone, hall, List.append_nil, Piece.ofText_marker, echoSigns, ih]
    · exact fun hmem => hdollar (List.mem_append_right w.marker hmem)
    · exact fun w d hd hoccurs => hdigit w d hd (hoccurs.trans hrest.isInfix)
    · rw [← List.tail_drop, horder, List.tail_cons]
  | case7 index c rest hc hline w hmarker behind hkind ih =>
    -- the wildcard of this index is the one whose marker stands here
    have hbehind : w.marker ++ behind = c :: rest := marker_append_drop hmarker
    rw [← hbehind, Piece.ofText_marker, Piece.wildcards] at horder
    have hindex : order[index]? = some w := by
      rw [← List.head?_drop, horder, List.head?_cons]
    exact absurd hindex hkind

/-! ## Rendering -/

/-- A character in front of a template is rendered in front of it. -/
theorem render_consChar (c : Char) (template : Template) (found : Text) (groups : Groups) :
    (consChar c template).render found groups = c :: template.render found groups := by
  unfold consChar
  split <;> rfl

/-- Characters in front of a template are rendered in front of it. -/
theorem render_foldr_consChar (text : Text) (template : Template) (found : Text)
    (groups : Groups) :
    (text.foldr consChar template).render found groups
      = text ++ template.render found groups := by
  induction text with
  | nil => rfl
  | cons c text ih => rw [List.foldr_cons, render_consChar, ih, List.cons_append]

/-- Joining literals does not change what is rendered. -/
theorem render_foldr_consAtom (tokens : List Token) (found : Text) (groups : Groups) :
    render (tokens.foldr consAtom []) found groups = render tokens found groups := by
  induction tokens with
  | nil => rfl
  | cons token tokens ih =>
    have hcons : render (token :: tokens) found groups
        = token.render found groups ++ render tokens found groups := List.flatMap_cons
    rw [List.foldr_cons, hcons, ← ih]
    cases token with
    | literal text => exact render_foldr_consChar text _ found groups
    | capture number => rfl
    | wholeLine => rfl

/-- **What pieces have read is put back**, whatever was found as a whole. -/
theorem render_echoSigns {pieces : List Piece} {captures : List Text} {span : Text}
    (h : Piece.Reads pieces captures span) (found : Text) {groups : Groups} {index : Nat}
    (hgroups : groups.drop index = captures.map some) :
    render ((echoSigns index pieces).map Sign.token) found groups = span := by
  induction h generalizing index with
  | nil => rfl
  | @char pieces captures span c _ ih =>
    have hrest := ih hgroups
    rw [echoSigns, List.map_cons]
    show [c] ++ render ((echoSigns index pieces).map Sign.token) found groups = c :: span
    rw [hrest, List.singleton_append]
  | @wildcard pieces captures span w capture _ _ ih =>
    rw [List.map_cons] at hgroups
    have hgroup : groups[index]? = some (some capture) := by
      rw [← List.head?_drop, hgroups, List.head?_cons]
    have hcaptured : Token.captured groups (index + 1) = capture := by
      rw [Token.captured, hgroup]
      rfl
    have hrest : render ((echoSigns (index + 1) pieces).map Sign.token) found groups = span := by
      apply ih
      rw [← List.tail_drop, hgroups, List.tail_cons]
    rw [echoSigns, List.map_cons, Sign.token, Text.decimalValue_decimal]
    show Token.captured groups (index + 1)
      ++ render ((echoSigns (index + 1) pieces).map Sign.token) found groups = capture ++ span
    rw [hcaptured, hrest]

/-- **The template of a replacement that is the search half itself puts back what was read.** -/
theorem exists_ofReplacement_of_isEcho {t : Text} (h : t.IsEcho) :
    ∃ template, ofReplacement t (Piece.wildcards (Piece.ofText t)) .text = .ok template ∧
      ∀ captures span, Piece.Reads (Piece.ofText t) captures span →
        ∀ found, template.render found (captures.map some) = span := by
  have hline : ¬ "$LINE".toList <:+: t := by
    intro hoccurs
    exact h.dollar (hoccurs.subset List.mem_cons_self)
  have hsigns : signs (rewritten (Piece.wildcards (Piece.ofText t)) .text 0 t)
      = echoSigns 0 (Piece.ofText t) := by
    rw [signs_rewritten hline, plainSigns_eq_echoSigns rfl h.dollar h.digit (List.drop_zero)]
  have hshort : ∀ digits, .numeral digits ∈ echoSigns 0 (Piece.ofText t) →
      digits.length ≤ maxNumeralDigits := by
    intro digits hdigits
    obtain ⟨n, hn, rfl⟩ := exists_number_of_mem_echoSigns hdigits
    rw [Nat.zero_add] at hn
    exact (Text.length_decimal_mono hn).trans h.few
  refine ⟨((echoSigns 0 (Piece.ofText t)).map Sign.token).foldr consAtom [], ?_, ?_⟩
  · rw [ofReplacement_eq, ofText, hsigns]
    exact ofSigns_eq_ok hshort
  · intro captures span hreads found
    rw [render_foldr_consAtom]
    exact render_echoSigns hreads found List.drop_zero

end Template

end RuleSweep
