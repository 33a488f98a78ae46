/-
# Where the characters of a result come from

Every character of a result is a character of the source or of the rule list
(`mem_of_mem_text`).  What a rule puts in the place of a find is made of literals, which come from
its replacement, of what its wildcards found and of the line that was found, which come from the
source; and the terminator that a replaced line keeps is its own.  The marks that the replacement
is rewritten with on the way never show: `Template.mem_of_mem_literal`.
-/
import RuleSweep.Proofs.Sweep.Junction
import RuleSweep.Proofs.Template.Newlines
import RuleSweep.Proofs.Template.Plain

namespace RuleSweep

/-! ## Templates -/

/-- The characters of the literals of a template are characters of the replacement. -/
theorem Template.mem_of_mem_literal {replacement : Text} {order : List Wildcard} {scope : Scope}
    {template : Template} (h : ofReplacement replacement order scope = .ok template)
    {text : Text} (htext : .literal text ∈ template) {c : Char} (hc : c ∈ text) :
    c ∈ replacement := by
  rw [ofReplacement_eq] at h
  obtain ⟨-, rfl⟩ := ofSigns_eq_ok_iff.mp h
  have hatom : .literal [c] ∈ (((signs (rewritten order scope 0 replacement)).map
      Sign.token).foldr consAtom []).flatMap Token.atoms :=
    List.mem_flatMap.mpr ⟨.literal text, htext, List.mem_map.mpr ⟨c, hc, rfl⟩⟩
  rw [atoms_foldr_consAtom, atoms_map_token, List.mem_map] at hatom
  obtain ⟨sign, hsign, htoken⟩ := hatom
  cases sign with
  | numeral digits => exact absurd htoken (by simp [Sign.token])
  | wholeLine => exact absurd htoken (by simp [Sign.token])
  | char d =>
    rw [Sign.token, Token.literal.injEq, List.singleton_inj] at htoken
    rw [htoken] at hsign
    exact mem_of_char_mem_signs hsign

/-! ## Captures -/

/-- What wildcards find is a part of what is read. -/
theorem Piece.Reads.mem_of_mem_capture {pieces : List Piece} {captures : List Text} {span : Text}
    (h : Reads pieces captures span) {capture : Text} (hcapture : capture ∈ captures) {c : Char}
    (hc : c ∈ capture) : c ∈ span := by
  induction h with
  | nil => exact absurd hcapture List.not_mem_nil
  | char d rest ih => exact List.mem_cons_of_mem d (ih hcapture)
  | wildcard finds rest ih =>
    rcases List.mem_cons.mp hcapture with rfl | hcapture
    · exact List.mem_append_left _ hc
    · exact List.mem_append_right _ (ih hcapture)

/-- The groups of alternatives that are not used hold nothing. -/
theorem Pattern.notMem_flatMap_unused (others : List (List Piece)) (capture : Text) :
    some capture ∉ others.flatMap unused := by
  simp [unused]

/-- What the groups of a hit hold is a part of what was hit. -/
theorem Pattern.mem_of_mem_groups {pattern : Pattern} {text : Text} {hit : Hit}
    (h : pattern.hit? text = some hit) {capture : Text} (hcapture : some capture ∈ hit.groups)
    {c : Char} (hc : c ∈ capture) : c ∈ text.take hit.length := by
  obtain ⟨span, earlier, used, later, captures, hlength, hfirst⟩ := firstFit?_eq_some h
  have hspan : text.take hit.length = span := by
    rw [← hlength]
    exact (List.prefix_iff_eq_take.mp hfirst.begins).symm
  rw [hspan]
  apply hfirst.reads.mem_of_mem_capture _ hc
  rw [hfirst.groups_eq, List.mem_append, List.mem_append] at hcapture
  rcases hcapture with (hcapture | hcapture) | hcapture
  · exact absurd hcapture (notMem_flatMap_unused earlier capture)
  · simpa using hcapture
  · exact absurd hcapture (notMem_flatMap_unused later capture)

/-! ## Rules -/

/-- The replacement of a rule holds only characters of the rule list. -/
theorem Rule.mem_of_mem_replacement {list replacement : Text} {rule : Rule} {deletes : Bool}
    (h : rule ∈ ofList list) (haction : rule.action = .replace replacement deletes) {c : Char}
    (hc : c ∈ replacement) : c ∈ list := by
  obtain ⟨row, hrow, n, hrule⟩ := exists_row_of_mem_ofRows h
  rw [action_ofRow? hrule] at haction
  exact Text.mem_of_mem_cutEvery hrow
    (Text.mem_of_mem_trim ((of_halves_eq_replace haction).1 c hc))

section RuleLists

variable {list : Text} {set : RuleSet} {matcher : Matcher} {c : Char}

/-- What a matcher puts in the place of a find comes from the rule list, from the groups and from
the find. -/
theorem RuleSet.mem_of_mem_render (h : ofList list = .ok set) (hmatcher : matcher ∈ set.matchers)
    {found : Text} {groups : Groups} (hc : c ∈ matcher.template.render found groups) :
    c ∈ list ∨ (∃ capture, some capture ∈ groups ∧ c ∈ capture) ∨ c ∈ found := by
  obtain ⟨text, htext, hmem⟩ | hcapture | hmem := Template.mem_of_mem_render hc
  · obtain ⟨rule, hrule, hofRule⟩ := exists_rule_of_ofRules h matcher hmatcher
    have htemplate := Matcher.templateOf_of_ofRule hofRule
    rw [Matcher.templateOf] at htemplate
    split at htemplate
    · rw [← Except.ok.inj htemplate] at htext
      exact absurd htext List.not_mem_nil
    · next replacement deletes haction =>
      exact Or.inl (Rule.mem_of_mem_replacement hrule haction
        (Template.mem_of_mem_literal htemplate htext hmem))
  · exact Or.inr (Or.inl hcapture)
  · exact Or.inr (Or.inr ((Text.withoutTerminator_isPrefix found).subset hmem))

/-- What a segment holds comes from the rule list and from the span for which it stands. -/
theorem StandsFor.mem_of_mem_text (h : RuleSet.ofList list = .ok set) {behind span rest : Text}
    {segment : Segment} (hsegment : StandsFor set.matchers behind span rest segment)
    (hc : c ∈ segment.text) : c ∈ list ∨ c ∈ span := by
  cases hsegment with
  | kept => exact Or.inr hc
  | marked mem scope marks hit => exact Or.inr hc
  | markedLine mem scope marks line fits => exact Or.inr hc
  | replaced mem scope replaces hit =>
    obtain hlist | ⟨capture, hcapture, hmem⟩ | hspan := RuleSet.mem_of_mem_render h mem hc
    · exact Or.inl hlist
    · have htake := Pattern.mem_of_mem_groups hit hcapture hmem
      rw [List.take_left] at htake
      exact Or.inr htake
    · exact Or.inr hspan
  | @replacedLine matcher found mem scope replaces line fits =>
    have hrendered : c ∈ matcher.render span found.hit.groups → c ∈ list ∨ c ∈ span := by
      intro hmem
      rw [Matcher.render, if_pos replaces] at hmem
      obtain hlist | ⟨capture, hcapture, hmem⟩ | hspan := RuleSet.mem_of_mem_render h mem hmem
      · exact Or.inl hlist
      · have hhit := (Pattern.find?_eq_some_iff.mp fits).1
        have htake := Pattern.mem_of_mem_groups hhit hcapture hmem
        exact Or.inr (List.mem_of_mem_drop (List.mem_of_mem_take htake))
      · exact Or.inr hspan
    simp only [Claim.segment] at hc
    split at hc
    · rcases List.mem_append.mp hc with hcontent | hterminator
      · exact hrendered hcontent
      · exact Or.inr ((Text.terminator_isSuffix span).subset hterminator)
    · exact hrendered hc

/-- What segments hold comes from the rule list and from the spans for which they stand. -/
theorem Tiles.mem_of_mem_textOf (h : RuleSet.ofList list = .ok set) {behind : Text}
    {spans : List Text} {segments : List Segment}
    (htiles : Tiles set.matchers behind spans segments) (hc : c ∈ Segment.textOf segments) :
    c ∈ list ∨ c ∈ spans.flatten := by
  induction segments generalizing behind spans with
  | nil => exact absurd hc List.not_mem_nil
  | cons segment segments ih =>
    cases spans with
    | nil => exact htiles.elim
    | cons span spans =>
      obtain ⟨-, hsegment, hlater⟩ := htiles
      rw [List.flatten_cons, List.mem_append]
      rcases List.mem_append.mp hc with hhere | hthere
      · exact (hsegment.mem_of_mem_text h hhere).imp_right Or.inl
      · exact (ih hlater hthere).imp_right Or.inr

/-- **Every character of a result is a character of the source or of the rule list.** -/
theorem mem_of_mem_text {source : Text} {result : Result} (h : evaluate source list = .ok result)
    (hc : c ∈ result.text) : c ∈ source ∨ c ∈ list := by
  obtain ⟨-, hempty⟩ | ⟨set, hset, htext⟩ := text_of_evaluate h
  · rw [hempty] at hc
    exact absurd hc List.not_mem_nil
  · rw [htext] at hc
    obtain ⟨hflatten, htiles⟩ := tiles_sweep (RuleSet.solid_of_ofList hset) source
    have hmem := htiles.mem_of_mem_textOf hset hc
    rw [hflatten] at hmem
    exact hmem.symm

end RuleLists

end RuleSweep
