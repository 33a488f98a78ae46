/-
# What rewriting does to a replacement

A replacement is rewritten three times before it is cut into tokens.  Each rewriting acts
at one character only (`ActsAt`): the doubling at dollars, the echo of the wildcards and
the echo of the line at brackets.  Every other character stays, and what comes in the place
of a dollar or of a bracket begins with one of these two.  So what stands right behind a
place, as far as it holds neither dollars nor brackets, stood there before:
`isPrefix_of_isPrefix_rewritten`.

The rest of this module says what becomes of each part that a replacement is made of:
of a lone dollar, of a dollar with digits, of a wildcard marker, of `[line]`, and of any
other character.
-/
import Mathlib.Data.List.Infix
import RuleSweep.Proofs.Text.Decimal
import RuleSweep.Template.Reading

namespace RuleSweep

/-! ## Markers -/

/-- The markers of all wildcards have the same length. -/
theorem Wildcard.length_marker (w : Wildcard) : w.marker.length = 5 := by
  cases w <;> rfl

namespace Template

/-- The wildcard whose marker a text begins with. -/
def markerAt? (t : Text) : Option Wildcard :=
  [Wildcard.number, .ideograph].find? fun w => w.marker.isPrefixOf t

/-- A text begins with the marker that is found at its beginning. -/
theorem marker_append_drop {t : Text} {w : Wildcard} (h : markerAt? t = some w) :
    w.marker ++ t.drop w.marker.length = t := by
  rw [markerAt?] at h
  have hmarker := List.find?_some h
  exact List.prefix_iff_eq_append.mp (List.isPrefixOf_iff_prefix.mp hmarker)

/-- No marker is found exactly if the text begins with none. -/
theorem markerAt?_eq_none_iff {t : Text} :
    markerAt? t = none ↔ ∀ w : Wildcard, ¬ w.marker <+: t := by
  rw [markerAt?, List.find?_eq_none]
  constructor
  · intro h w hw
    exact h w (by cases w <;> simp) (List.isPrefixOf_iff_prefix.mpr hw)
  · intro h w _ hw
    exact h w (List.isPrefixOf_iff_prefix.mp hw)

end Template

namespace Piece

/-- A marker is read as its wildcard. -/
theorem ofText_marker (w : Wildcard) (t : Text) :
    ofText (w.marker ++ t) = .wildcard w :: ofText t := by
  cases w <;> rfl

/-- A character at which no marker begins is read as itself. -/
theorem ofText_cons {c : Char} {t : Text} (h : Template.markerAt? (c :: t) = none) :
    ofText (c :: t) = .char c :: ofText t := by
  have hmarker := Template.markerAt?_eq_none_iff.mp h
  rw [ofText]
  · rintro rest rfl rfl
    exact hmarker .number ⟨rest, rfl⟩
  · rintro rest rfl rfl
    exact hmarker .ideograph ⟨rest, rfl⟩

end Piece

namespace Template

/-! ## Where a rewriting acts -/

/-- A rewriting of texts that leaves every character but `mark` as it is, and puts
something in the place of that which begins with a dollar or a bracket. -/
structure ActsAt (mark : Char) (f : Text → Text) : Prop where
  /-- The empty text stays empty. -/
  nil : f [] = []
  /-- Any other character stays. -/
  cons : ∀ c t, c ≠ mark → f (c :: t) = c :: f t
  /-- In the place of the mark comes a dollar or a bracket. -/
  mark : ∀ t, ∃ rest, f (mark :: t) = '$' :: rest ∨ f (mark :: t) = '[' :: rest

namespace ActsAt

variable {mark : Char} {f : Text → Text}

/-- A text without the mark stays. -/
theorem append (hf : ActsAt mark f) {a : Text} (ha : mark ∉ a) (t : Text) :
    f (a ++ t) = a ++ f t := by
  induction a with
  | nil => rfl
  | cons c a ih =>
    rw [List.mem_cons, not_or] at ha
    rw [List.cons_append, hf.cons c (a ++ t) (Ne.symm ha.1), ih ha.2, List.cons_append]

/-- A text without dollars and brackets with which the rewritten text begins stood there
before. -/
theorem isPrefix_of_isPrefix (hf : ActsAt mark f) {a t : Text} (hdollar : '$' ∉ a)
    (hbracket : '[' ∉ a) (h : a <+: f t) : a <+: t := by
  induction a generalizing t with
  | nil => exact List.nil_prefix
  | cons x a ih =>
    rw [List.mem_cons, not_or] at hdollar hbracket
    cases t with
    | nil => rwa [hf.nil] at h
    | cons c t =>
      by_cases hc : c = mark
      · subst hc
        obtain ⟨rest, hrest | hrest⟩ := hf.mark t
        · rw [hrest, List.cons_prefix_cons] at h
          exact absurd h.1.symm hdollar.1
        · rw [hrest, List.cons_prefix_cons] at h
          exact absurd h.1.symm hbracket.1
      · rw [hf.cons c t hc, List.cons_prefix_cons] at h
        exact List.cons_prefix_cons.mpr ⟨h.1, ih hdollar.2 hbracket.2 h.2⟩

end ActsAt

/-! ## The three rewritings -/

/-- The doubling acts at dollars. -/
theorem actsAt_doubleDollars : ActsAt '$' doubleDollars where
  nil := rfl
  cons c t hc := by
    rw [doubleDollars]
    exact hc
  mark t := by
    rw [doubleDollars]
    split
    · exact ⟨_, .inl rfl⟩
    · exact ⟨_, .inl rfl⟩

/-- The echo of the wildcards acts at brackets. -/
theorem actsAt_echoPieces (order : List Wildcard) (index : Nat) :
    ActsAt '[' fun t => echoPieces order index (Piece.ofText t) where
  nil := rfl
  cons c t hc := by
    have hmarker : markerAt? (c :: t) = none := by
      refine markerAt?_eq_none_iff.mpr fun w hw => ?_
      exact hc (List.cons_prefix_cons.mp hw).1.symm
    simp only [Piece.ofText_cons hmarker, echoPieces]
  mark t := by
    cases hmarker : markerAt? ('[' :: t) with
    | none =>
      refine ⟨echoPieces order index (Piece.ofText t), .inr ?_⟩
      simp only [Piece.ofText_cons hmarker, echoPieces]
    | some w =>
      rw [← marker_append_drop hmarker]
      simp only [Piece.ofText_marker, echoPieces]
      split
      · exact ⟨_, .inl rfl⟩
      · exact ⟨_, .inr rfl⟩

/-- Without wildcards nothing is echoed. -/
theorem echoPieces_nil (index : Nat) (t : Text) : echoPieces [] index (Piece.ofText t) = t := by
  induction t using Piece.ofText.induct generalizing index with
  | case1 => rfl
  | case2 rest ih =>
    rw [Piece.ofText, echoPieces, ih]
    rfl
  | case3 rest ih =>
    rw [Piece.ofText, echoPieces, ih]
    rfl
  | case4 c rest hnumber hideograph ih =>
    rw [Piece.ofText.eq_4 c rest hnumber hideograph, echoPieces, ih]

/-- A character at which no `[line]` begins stays. -/
theorem echoLines_cons {c : Char} {t : Text} (h : ¬ lineMark <+: c :: t) :
    echoLines (c :: t) = c :: echoLines t := by
  rw [echoLines]
  rintro rest rfl rfl
  exact h ⟨rest, rfl⟩

/-- The echo of the line acts at brackets. -/
theorem actsAt_echoLines : ActsAt '[' echoLines where
  nil := rfl
  cons c t hc := by
    refine echoLines_cons fun hline => ?_
    exact hc (List.cons_prefix_cons.mp hline).1.symm
  mark t := by
    by_cases hline : lineMark <+: '[' :: t
    · obtain ⟨rest, hrest⟩ := hline
      rw [← hrest]
      exact ⟨_, .inl rfl⟩
    · exact ⟨_, .inr (echoLines_cons hline)⟩

section Rewritten

variable {order : List Wildcard} {scope : Scope} {index : Nat}

variable (order scope) in
/-- Replace every `[line]` by the mark of the whole line, if it may stand for the line. -/
def echoLine (t : Text) : Text :=
  if scope = .line ∧ order = [] then echoLines t else t

/-- A character at which no `[line]` begins that may stand for the line stays. -/
theorem echoLine_cons {c : Char} {t : Text}
    (h : ¬ (scope = .line ∧ order = [] ∧ lineMark <+: c :: t)) :
    echoLine order scope (c :: t) = c :: echoLine order scope t := by
  unfold echoLine
  split
  · next hline => exact echoLines_cons fun hmark => h ⟨hline.1, hline.2, hmark⟩
  · rfl

/-- The echo of the line acts at brackets, whether or not it does anything. -/
theorem actsAt_echoLine (order : List Wildcard) (scope : Scope) :
    ActsAt '[' (echoLine order scope) := by
  unfold echoLine
  split
  · exact actsAt_echoLines
  · exact ⟨rfl, fun _ _ _ => rfl, fun t => ⟨t, .inr rfl⟩⟩

/-- A wildcard marker stays when the line is echoed. -/
theorem echoLine_marker (w : Wildcard) (t : Text) :
    echoLine order scope (w.marker ++ t) = w.marker ++ echoLine order scope t := by
  have hopening : w.marker ++ t = '[' :: (w.name ++ [']'] ++ t) := rfl
  have hname : '[' ∉ w.name ++ [']'] := by cases w <;> decide
  have hline : ¬ lineMark <+: '[' :: (w.name ++ [']'] ++ t) := by
    intro hline
    have hletter := (List.cons_prefix_cons.mp hline).2
    cases w <;> exact absurd (List.cons_prefix_cons.mp hletter).1 (by decide)
  rw [hopening, echoLine_cons fun h => hline h.2.2, (actsAt_echoLine order scope).append hname]
  rfl

/-! ## The rewritten replacement -/

variable (order scope index) in
/-- The rewritten replacement, when `index` wildcard markers stand before it. -/
def rewritten (t : Text) : Text :=
  echoLine order scope (echoPieces order index (Piece.ofText (doubleDollars t)))

/-- A replacement is rewritten, and then cut into tokens. -/
theorem ofReplacement_eq (replacement : Text) (order : List Wildcard) (scope : Scope) :
    ofReplacement replacement order scope = ofText (rewritten order scope 0 replacement) := rfl

/-- A text without dollars and brackets with which the rewritten replacement begins stood
there before. -/
theorem isPrefix_of_isPrefix_rewritten {a t : Text} (hdollar : '$' ∉ a) (hbracket : '[' ∉ a)
    (h : a <+: rewritten order scope index t) : a <+: t := by
  have hechoed := (actsAt_echoLine order scope).isPrefix_of_isPrefix hdollar hbracket h
  have hdoubled := (actsAt_echoPieces order index).isPrefix_of_isPrefix hdollar hbracket hechoed
  exact actsAt_doubleDollars.isPrefix_of_isPrefix hdollar hbracket hdoubled

/-- A text without dollars and brackets stays. -/
theorem rewritten_append {a : Text} (hdollar : '$' ∉ a) (hbracket : '[' ∉ a) (t : Text) :
    rewritten order scope index (a ++ t) = a ++ rewritten order scope index t := by
  have hechoed := (actsAt_echoPieces order index).append hbracket (doubleDollars t)
  rw [rewritten, actsAt_doubleDollars.append hdollar, hechoed,
    (actsAt_echoLine order scope).append hbracket, rewritten]

/-- A character stays that is no dollar and at which no marker begins. -/
theorem rewritten_char {c : Char} {t : Text} (hc : c ≠ '$') (hmarker : markerAt? (c :: t) = none)
    (hline : ¬ (scope = .line ∧ order = [] ∧ lineMark <+: c :: t)) :
    rewritten order scope index (c :: t) = c :: rewritten order scope index t := by
  have hmarker' : markerAt? (c :: doubleDollars t) = none := by
    refine markerAt?_eq_none_iff.mpr fun w hw => markerAt?_eq_none_iff.mp hmarker w ?_
    obtain ⟨hbracket, hname⟩ := List.cons_prefix_cons.mp hw
    refine List.cons_prefix_cons.mpr ⟨hbracket, ?_⟩
    exact actsAt_doubleDollars.isPrefix_of_isPrefix (by cases w <;> decide)
      (by cases w <;> decide) hname
  rw [rewritten, actsAt_doubleDollars.cons c t hc, Piece.ofText_cons hmarker', echoPieces,
    echoLine_cons, rewritten]
  -- where the line is echoed there are no wildcards, so only dollars were doubled before
  rintro ⟨hscope, rfl, hmark⟩
  rw [echoPieces_nil] at hmark
  obtain ⟨hbracket, hname⟩ := List.cons_prefix_cons.mp hmark
  refine hline ⟨hscope, rfl, List.cons_prefix_cons.mpr ⟨hbracket, ?_⟩⟩
  exact actsAt_doubleDollars.isPrefix_of_isPrefix (by decide) (by decide) hname

/-- A dollar that no digit follows is doubled. -/
theorem rewritten_dollar {t : Text} (ht : t.takeWhile isDigit = []) :
    rewritten order scope index ('$' :: t) = '$' :: '$' :: rewritten order scope index t := by
  have hdoubled : doubleDollars ('$' :: t) = ['$', '$'] ++ doubleDollars t := by
    rw [doubleDollars, if_neg]
    · rfl
    · cases t with
      | nil => simp
      | cons d t => simpa [List.takeWhile_cons] using ht
  have hbracket : '[' ∉ ['$', '$'] := by decide
  have hechoed := (actsAt_echoPieces order index).append hbracket (doubleDollars t)
  rw [rewritten, hdoubled, hechoed, (actsAt_echoLine order scope).append hbracket]
  rfl

/-- A dollar that a digit follows stays. -/
theorem rewritten_numeral {t : Text} (ht : t.takeWhile isDigit ≠ []) :
    rewritten order scope index ('$' :: t) = '$' :: rewritten order scope index t := by
  have hdoubled : doubleDollars ('$' :: t) = '$' :: doubleDollars t := by
    cases t with
    | nil => exact absurd rfl ht
    | cons d t =>
      have hd : isDigit d = true := by
        by_contra hd
        exact ht (List.takeWhile_cons_of_neg hd)
      rw [doubleDollars, if_pos (by simpa using hd)]
  have hechoed := (actsAt_echoPieces order index).cons '$' (doubleDollars t) (by decide)
  rw [rewritten, hdoubled, hechoed, (actsAt_echoLine order scope).cons _ _ (by decide), rewritten]

/-- A run of digits holds nothing but digits. -/
theorem notMem_of_forall_isDigit {digits : Text} (h : ∀ d ∈ digits, isDigit d = true) {c : Char}
    (hc : isDigit c = false) : c ∉ digits := by
  intro hmem
  rw [h c hmem] at hc
  exact absurd hc (by decide)

/-- The capture that a marker becomes holds nothing but a dollar and digits. -/
theorem notMem_dollar_decimal {c : Char} (hdollar : c ≠ '$') (hdigit : isDigit c = false)
    (n : Nat) : c ∉ '$' :: Text.decimal n := by
  rw [List.mem_cons, not_or]
  exact ⟨hdollar, notMem_of_forall_isDigit (Text.isDigit_of_mem_decimal n) hdigit⟩

/-- A marker becomes a capture if the wildcard of its index has its kind, and stays
otherwise. -/
theorem rewritten_marker (w : Wildcard) (t : Text) :
    rewritten order scope index (w.marker ++ t)
      = (if order[index]? = some w then '$' :: Text.decimal (index + 1) else w.marker)
        ++ rewritten order scope (index + 1) t := by
  have hdollar : '$' ∉ w.marker := by cases w <;> decide
  rw [rewritten, actsAt_doubleDollars.append hdollar, Piece.ofText_marker, echoPieces,
    rewritten]
  split
  · have hbracket : '[' ∉ '$' :: Text.decimal (index + 1) :=
      notMem_dollar_decimal (by decide) (by decide) (index + 1)
    exact (actsAt_echoLine order scope).append hbracket _
  · exact echoLine_marker w _

/-- `[line]` becomes the mark of the whole line where it may stand for the line. -/
theorem rewritten_line (t : Text) :
    rewritten [] .line index (lineMark ++ t) = wholeLineMark ++ rewritten [] .line index t := by
  simp only [rewritten, actsAt_doubleDollars.append (show '$' ∉ lineMark by decide),
    echoPieces_nil, echoLine, and_self, if_true]
  rfl

end Rewritten

end Template

end RuleSweep
