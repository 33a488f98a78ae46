/-
# Templates without newlines

Nothing that a rule list puts in the place of a find brings a newline with it.  The rows of
the list hold none, and neither rewriting nor cutting makes one, so the literals of a
template hold none (`RuleSet.withinLine_template`).  A wildcard finds digits or an
ideograph, and the whole line is taken without its terminator.  So what is rendered for a
find holds no newline, as long as the find holds one at most at its end:
`Template.WithinLine.newline_notMem_render`.
-/
import RuleSweep.Proofs.RuleList
import RuleSweep.Proofs.Template.Rewriting
import RuleSweep.Proofs.Template.Signs
import RuleSweep.Proofs.Text.Terminator

namespace RuleSweep

namespace Template

/-! ## The literals of a template -/

/-- Doubling dollars makes no newline. -/
theorem newline_notMem_doubleDollars {t : Text} (h : '\n' ∉ t) : '\n' ∉ doubleDollars t := by
  fun_induction doubleDollars t with
  | case1 => exact h
  | case2 rest _ ih => simp_all
  | case3 rest _ ih => simp_all
  | case4 c rest _ ih => simp_all

/-- Echoing wildcards makes no newline. -/
theorem newline_notMem_echoPieces {order : List Wildcard} {index : Nat} {pieces : List Piece}
    (h : Piece.char '\n' ∉ pieces) : '\n' ∉ echoPieces order index pieces := by
  fun_induction echoPieces order index pieces with
  | case1 => exact List.not_mem_nil
  | case2 index c rest ih => simp_all
  | case3 index w rest ih =>
    have hecho : '\n' ∉ '$' :: Text.decimal (index + 1) :=
      notMem_dollar_decimal (by decide) (by decide) (index + 1)
    have hmarker : '\n' ∉ w.marker := by cases w <;> decide
    rw [List.mem_append, not_or]
    refine ⟨?_, ih (List.not_mem_of_not_mem_cons h)⟩
    split
    · exact hecho
    · exact hmarker

/-- Echoing the line makes no newline. -/
theorem newline_notMem_echoLines {t : Text} (h : '\n' ∉ t) : '\n' ∉ echoLines t := by
  fun_induction echoLines t with
  | case1 => exact h
  | case2 rest ih =>
    have hrest : '\n' ∉ rest := fun hmem => h (by simp [hmem])
    have hmark : '\n' ∉ wholeLineMark := by decide
    rw [List.mem_append, not_or]
    exact ⟨hmark, ih hrest⟩
  | case3 c rest _ ih => simp_all

/-- Cutting a text into signs makes no newline. -/
theorem newline_notMem_signsFrom {skip : Nat} {t : Text} (h : '\n' ∉ t) :
    .char '\n' ∉ signsFrom skip t := by
  fun_induction signsFrom skip t with
  | case1 => exact List.not_mem_nil
  | case2 skip c rest ih => exact ih (List.not_mem_of_not_mem_cons h)
  | case3 rest _ ih => simp_all
  | case4 rest _ _ ih => simp_all
  | case5 rest _ _ _ ih => simp_all
  | case6 rest _ _ _ ih => simp_all
  | case7 c rest _ ih => simp_all

/-- No literal of the template holds a newline. -/
def WithinLine (template : Template) : Prop :=
  ∀ text, .literal text ∈ template → '\n' ∉ text

/-- A character in front of a template, if it is no newline, brings none into it. -/
theorem WithinLine.consChar {template : Template} (h : template.WithinLine) {c : Char}
    (hc : '\n' ≠ c) : (consChar c template).WithinLine := by
  intro text hmem
  unfold Template.consChar at hmem
  split at hmem
  · next literal rest =>
    obtain heq | hmem := List.mem_cons.mp hmem
    · have hliteral : '\n' ∉ literal := h literal List.mem_cons_self
      rw [Token.literal.inj heq, List.mem_cons, not_or]
      exact ⟨hc, hliteral⟩
    · exact h text (List.mem_cons_of_mem _ hmem)
  · obtain heq | hmem := List.mem_cons.mp hmem
    · rw [Token.literal.inj heq, List.mem_singleton]
      exact hc
    · exact h text hmem

/-- Tokens without a newline, put one in front of the other, bring none into the template. -/
theorem WithinLine.foldr_consAtom {tokens : List Token} (h : WithinLine tokens) :
    WithinLine (tokens.foldr consAtom []) := by
  induction tokens with
  | nil => exact fun text hmem => absurd hmem List.not_mem_nil
  | cons token tokens ih =>
    have hrest := ih fun text hmem => h text (List.mem_cons_of_mem token hmem)
    rw [List.foldr_cons]
    cases token with
    | literal text =>
      have htext : '\n' ∉ text := h text List.mem_cons_self
      rw [consAtom]
      clear h
      induction text with
      | nil => exact hrest
      | cons c text ih =>
        rw [List.mem_cons, not_or] at htext
        exact (ih htext.2).consChar htext.1
    | capture number => exact fun text hmem => hrest text (by simpa [consAtom] using hmem)
    | wholeLine => exact fun text hmem => hrest text (by simpa [consAtom] using hmem)

/-- The template of signs without a newline holds none. -/
theorem withinLine_ofSigns {list : List Sign} {template : Template}
    (hlist : .char '\n' ∉ list) (h : ofSigns list = .ok template) : template.WithinLine := by
  obtain ⟨-, rfl⟩ := ofSigns_eq_ok_iff.mp h
  refine WithinLine.foldr_consAtom fun text hmem => ?_
  obtain ⟨sign, hsign, htoken⟩ := List.mem_map.mp hmem
  cases sign with
  | char c =>
    rw [← Token.literal.inj htoken, List.mem_singleton]
    rintro rfl
    exact hlist hsign
  | numeral digits => exact absurd htoken (by simp [Sign.token])
  | wholeLine => exact absurd htoken (by simp [Sign.token])

/-- The template of a replacement without a newline holds none. -/
theorem withinLine_ofReplacement {replacement : Text} {order : List Wildcard} {scope : Scope}
    {template : Template} (hreplacement : '\n' ∉ replacement)
    (h : ofReplacement replacement order scope = .ok template) : template.WithinLine := by
  have hechoed : '\n' ∉ echoPieces order 0 (Piece.ofText (doubleDollars replacement)) :=
    newline_notMem_echoPieces fun hmem =>
      newline_notMem_doubleDollars hreplacement (Piece.mem_of_char_mem_ofText hmem)
  have hrewritten : '\n' ∉ rewritten order scope 0 replacement := by
    rw [rewritten, echoLine]
    split
    · exact newline_notMem_echoLines hechoed
    · exact hechoed
  rw [ofReplacement_eq] at h
  exact withinLine_ofSigns (newline_notMem_signsFrom hrewritten) h

/-- The template of the empty replacement is empty. -/
theorem ofReplacement_nil (order : List Wildcard) (scope : Scope) :
    ofReplacement [] order scope = .ok [] := by
  unfold ofReplacement
  dsimp only
  split <;> rfl

/-- What a template stands for comes from its literals, from the captures and from the find. -/
theorem mem_of_mem_render {template : Template} {found : Text} {groups : Groups} {c : Char}
    (h : c ∈ template.render found groups) :
    (∃ text, .literal text ∈ template ∧ c ∈ text) ∨
      (∃ capture, some capture ∈ groups ∧ c ∈ capture) ∨ c ∈ found.withoutTerminator := by
  obtain ⟨token, htoken, hmem⟩ := List.mem_flatMap.mp h
  cases token with
  | literal text => exact Or.inl ⟨text, htoken, hmem⟩
  | wholeLine => exact Or.inr (Or.inr hmem)
  | capture number =>
    cases number with
    | zero => simp [Token.render, Token.captured] at hmem
    | succ i =>
      rw [Token.render, Token.captured] at hmem
      cases hgroup : groups[i]? with
      | none => simp [hgroup] at hmem
      | some group =>
        cases group with
        | none => simp [hgroup] at hmem
        | some capture =>
          rw [hgroup] at hmem
          exact Or.inr (Or.inl ⟨capture, List.mem_of_getElem? hgroup, hmem⟩)

/-- What a template without a newline stands for holds none, if the captures hold none and
the find at most one at its end. -/
theorem WithinLine.newline_notMem_render {template : Template} (h : template.WithinLine)
    {found : Text} {groups : Groups} (hfound : '\n' ∉ found.dropLast)
    (hgroups : ∀ capture, some capture ∈ groups → '\n' ∉ capture) :
    '\n' ∉ template.render found groups := by
  intro hmem
  obtain ⟨text, htext, hmem⟩ | ⟨capture, hcapture, hmem⟩ | hmem := mem_of_mem_render hmem
  · exact h text htext hmem
  · exact hgroups capture hcapture hmem
  · exact Text.newline_notMem_withoutTerminator hfound hmem

end Template

/-! ## Captures -/

/-- No wildcard finds a newline. -/
theorem Pattern.newline_notMem_of_mem_groups {pattern : Pattern} {text : Text} {hit : Hit}
    (h : pattern.hit? text = some hit) :
    ∀ capture, some capture ∈ hit.groups → '\n' ∉ capture := by
  obtain ⟨_, _, _, _, _, _, hfirst⟩ := firstFit?_eq_some h
  intro capture hmem
  obtain ⟨i, hi, hcapture⟩ := List.mem_iff_getElem.mp hmem
  have hfills := hfirst.forall₂_fills
  have hwildcard := hfills.get (hfills.length_eq ▸ hi) hi
  exact (hwildcard capture hcapture).newline_notMem

/-! ## Rules -/

namespace Rule

/-- The replacement half of a row holds only characters of the row, and nothing if it
deletes. -/
theorem of_halves_eq_replace {row replacement : Text} {deletes : Bool}
    (h : (halves row).2 = .replace replacement deletes) :
    (∀ c ∈ replacement, c ∈ row) ∧ (deletes = true → replacement = []) := by
  rw [halves] at h
  split at h
  · exact absurd h (by simp)
  · next before after hcut =>
    simp only [actionOf] at h
    split at h
    · obtain ⟨rfl, rfl⟩ := Action.replace.inj h
      exact ⟨by simp, fun _ => rfl⟩
    · obtain ⟨rfl, rfl⟩ := Action.replace.inj h
      refine ⟨fun c hc => ?_, by simp⟩
      rw [← Text.append_of_cutAt? hcut]
      simp [Text.mem_of_mem_trim hc]

/-- The rule on a row asks for the action of the row. -/
theorem action_ofRow? {number : Int} {row : Text} {rule : Rule}
    (h : ofRow? number row = some rule) : rule.action = (halves row.trim).2 := by
  obtain ⟨rfl, -⟩ := of_ofRow?_eq_some h
  rfl

/-- No rule of a rule list puts a newline in the place of what it finds, and a rule that
deletes puts nothing there. -/
theorem of_action_eq_replace {list replacement : Text} {rule : Rule} {deletes : Bool}
    (h : rule ∈ ofList list) (haction : rule.action = .replace replacement deletes) :
    '\n' ∉ replacement ∧ (deletes = true → replacement = []) := by
  obtain ⟨row, hrow, n, hrule⟩ := exists_row_of_mem_ofRows h
  rw [action_ofRow? hrule] at haction
  obtain ⟨hmem, hdeletes⟩ := of_halves_eq_replace haction
  refine ⟨fun hnewline => ?_, hdeletes⟩
  exact Text.notMem_of_mem_cutEvery hrow (Text.mem_of_mem_trim (hmem '\n' hnewline))

end Rule

/-! ## Matchers -/

namespace Matcher

/-- The template of a matcher is that of its rule. -/
theorem templateOf_of_ofRule {rule : Rule} {matcher : Matcher} (h : ofRule rule = .ok matcher) :
    templateOf rule matcher.pattern.wildcards = .ok matcher.template := by
  rw [ofRule] at h
  split at h
  · exact absurd h (by simp)
  · split at h
    · exact absurd h (by simp)
    · next htemplate =>
      rw [Except.ok.injEq] at h
      rw [← h]
      exact htemplate

end Matcher

namespace RuleSet

variable {list : Text} {set : RuleSet} {matcher : Matcher}

/-- The templates of a rule list hold no newline. -/
theorem withinLine_template (h : ofList list = .ok set) (hmatcher : matcher ∈ set.matchers) :
    matcher.template.WithinLine := by
  obtain ⟨rule, hmem, hrule⟩ := exists_rule_of_ofRules h matcher hmatcher
  have htemplate := Matcher.templateOf_of_ofRule hrule
  rw [Matcher.templateOf] at htemplate
  split at htemplate
  · rw [← Except.ok.inj htemplate]
    exact fun text hmem => absurd hmem List.not_mem_nil
  · next replacement deletes haction =>
    exact Template.withinLine_ofReplacement (Rule.of_action_eq_replace hmem haction).1 htemplate

/-- The template of a rule that deletes is empty. -/
theorem template_eq_nil (h : ofList list = .ok set) (hmatcher : matcher ∈ set.matchers)
    (hdeletes : matcher.rule.deletes = true) : matcher.template = [] := by
  obtain ⟨rule, hmem, hrule⟩ := exists_rule_of_ofRules h matcher hmatcher
  have htemplate := Matcher.templateOf_of_ofRule hrule
  rw [(Matcher.of_ofRule hrule).1, Rule.deletes] at hdeletes
  rw [Matcher.templateOf] at htemplate
  split at htemplate
  · next haction => simp [haction] at hdeletes
  · next replacement deletes haction =>
    rw [haction] at hdeletes
    rw [(Rule.of_action_eq_replace hmem haction).2 hdeletes, Template.ofReplacement_nil,
      Except.ok.injEq] at htemplate
    exact htemplate.symm

end RuleSet

end RuleSweep
