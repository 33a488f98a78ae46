/-
# The claims on a source

The lines of a source stand one behind the other and make it up (`Line.cover_ofSource`), and there
is no other way to cut it into lines (`Line.Cover.eq_ofSource`).  A line is claimed exactly if some
rule fits inside its own text, whatever stands in front of it or behind it.  The first of these
rules has it, with what its leftmost match in the line found: `Claim.ofSource_on_lines`.

A rule fits inside a text if one of the alternatives of its body does (`Rule.FitsIn`), and where
its leftmost match is and what this finds is said of the alternatives as well
(`Rule.LeftmostAt`).  Nothing is asked of the body: it may hold newlines.
-/
import RuleSweep.Proofs.RuleList
import RuleSweep.Proofs.Sweep.Ahead
import RuleSweep.Proofs.Sweep.Marks

namespace RuleSweep

/-! ## Lines that cover a source -/

namespace Line

/-- Lines stand one behind the other and make up a source. -/
structure Cover (source : Text) (lines : List Line) : Prop where
  /-- Put together they are the source. -/
  whole : (lines.map Line.text).flatten = source
  /-- Each of them begins right behind those in front of it. -/
  placed : ∀ before line after, lines = before ++ line :: after →
    line.start = (before.map Line.text).flatten.length
  /-- Each holds a character, and a newline at most at its end; all but the last one end in a
  newline. -/
  areLines : Text.AreLines (lines.map Line.text)

/-- Of texts that are placed from a position on, each begins right behind those in front of it. -/
theorem start_of_placeFrom {start : Nat} {texts : List Text} {before after : List Line}
    {line : Line} (h : placeFrom start texts = before ++ line :: after) :
    line.start = start + (before.map Line.text).flatten.length := by
  induction before generalizing start texts with
  | nil =>
    cases texts with
    | nil => exact absurd h.symm (List.cons_ne_nil line after)
    | cons text texts =>
      rw [placeFrom, List.nil_append, List.cons.injEq] at h
      rw [← h.1]
      rfl
  | cons first before ih =>
    cases texts with
    | nil => exact absurd h.symm (List.cons_ne_nil first _)
    | cons text texts =>
      rw [placeFrom, List.cons_append, List.cons.injEq] at h
      obtain ⟨rfl, hrest⟩ := h
      rw [ih hrest, List.map_cons, List.flatten_cons, List.length_append, Nat.add_assoc]

/-- **The lines of a source make it up.** -/
theorem cover_ofSource (source : Text) : Cover source (ofSource source) where
  whole := by rw [map_text_ofSource, Text.flatten_lines]
  placed := by
    intro before line after h
    rw [start_of_placeFrom h, Nat.zero_add]
  areLines := by
    rw [map_text_ofSource]
    exact Text.areLines_lines source

/-- Lines of which each begins right behind those in front of it are placed from the first position
on. -/
theorem eq_placeFrom {start : Nat} {lines : List Line}
    (h : ∀ before line after, lines = before ++ line :: after →
      line.start = start + (before.map Line.text).flatten.length) :
    lines = placeFrom start (lines.map Line.text) := by
  induction lines generalizing start with
  | nil => rfl
  | cons line lines ih =>
    have hline : line.start = start := h [] line lines rfl
    rw [List.map_cons, placeFrom, ← hline]
    congr 1
    apply ih
    -- a line of the rest has the first line in front of it as well
    intro before other after heq
    have hother := h (line :: before) other after (by rw [heq]; rfl)
    rw [List.map_cons, List.flatten_cons, List.length_append] at hother
    omega

/-- **Only the lines of a source make it up.** -/
theorem Cover.eq_ofSource {source : Text} {lines : List Line} (h : Cover source lines) :
    lines = ofSource source := by
  have hplaced : lines = placeFrom 0 (lines.map Line.text) := by
    apply eq_placeFrom
    intro before line after heq
    rw [h.placed before line after heq, Nat.zero_add]
  rw [ofSource, ← h.whole, Text.lines_flatten h.areLines]
  exact hplaced

/-- Lines that are placed one behind the other do not overlap, and stand in order. -/
theorem pairwise_placeFrom (start : Nat) (texts : List Text) :
    (placeFrom start texts).Pairwise fun line later => line.stop ≤ later.start := by
  induction texts generalizing start with
  | nil => exact .nil
  | cons text texts ih =>
    refine .cons ?_ (ih (start + text.length))
    intro later hlater
    exact le_start_of_mem_placeFrom hlater

/-- A line of a source holds a character. -/
theorem start_lt_stop_of_mem {source : Text} {line : Line} (h : line ∈ ofSource source) :
    line.start < line.stop := by
  have htext : line.text.IsLine := (cover_ofSource source).areLines.each _ (List.mem_map_of_mem h)
  have hpos := List.length_pos_of_ne_nil htext.ne_nil
  unfold stop
  omega

end Line

/-! ## Rules in a text -/

namespace Rule

/-- One of the alternatives that a rule searches for fits somewhere in a text. -/
def FitsIn (rule : Rule) (text : Text) : Prop :=
  ∃ s, ∃ pieces ∈ Pattern.readings rule.body, Piece.Fits pieces (text.drop s)

/-- The leftmost match of a rule in a text is at a place, and its wildcards find these groups: no
alternative fits further to the left, and here the first one that fits is read greedily. -/
structure LeftmostAt (rule : Rule) (text : Text) (s : Nat) (groups : Groups) : Prop where
  /-- Nothing fits further to the left. -/
  leftmost : ∀ s' < s, ∀ pieces ∈ Pattern.readings rule.body, ¬ Piece.Fits pieces (text.drop s')
  /-- The first alternative that fits here finds the groups. -/
  first : ∃ span earlier used later captures, Pattern.FirstFit (Pattern.readings rule.body)
    (text.drop s) span groups earlier used later captures

end Rule

namespace Matcher

variable {rule : Rule} {matcher : Matcher} (h : ofRule rule = .ok matcher)
include h

/-- The matcher of a rule fits at a place exactly if an alternative of the rule does. -/
theorem hit?_eq_none_iff {t : Text} : matcher.pattern.hit? t = none ↔
    ∀ pieces ∈ Pattern.readings rule.body, ¬ Piece.Fits pieces t := by
  rw [Pattern.hit?, Pattern.firstFit?_eq_none_iff,
    Pattern.alternatives_of_ofSearch? (of_ofRule h).2]

/-- The matcher of a rule finds nothing in a text exactly if the rule fits nowhere in it. -/
theorem find?_eq_none_iff {text : Text} :
    matcher.pattern.find? text = none ↔ ¬ rule.FitsIn text := by
  rw [Pattern.find?_eq_none_iff]
  simp only [hit?_eq_none_iff h]
  constructor
  · rintro hnone ⟨s, pieces, hpieces, hfits⟩
    exact hnone s pieces hpieces hfits
  · intro hnone s pieces hpieces hfits
    exact hnone ⟨s, pieces, hpieces, hfits⟩

/-- What the matcher of a rule finds in a text is the leftmost match of the rule. -/
theorem leftmostAt_of_find? {text : Text} {found : Find}
    (hfound : matcher.pattern.find? text = some found) :
    rule.LeftmostAt text found.skipped found.hit.groups := by
  obtain ⟨hhit, hbefore⟩ := Pattern.find?_eq_some_iff.mp hfound
  obtain ⟨span, earlier, used, later, captures, -, hfirst⟩ := Pattern.firstFit?_eq_some hhit
  rw [Pattern.alternatives_of_ofSearch? (of_ofRule h).2] at hfirst
  constructor
  · intro s hs
    exact (hit?_eq_none_iff h).mp (hbefore s hs)
  · exact ⟨span, earlier, used, later, captures, hfirst⟩

end Matcher

/-! ## Claims -/

namespace Claim

variable {rules : List Rule} {matchers : List Matcher} {source : Text}

/-- A line is claimed exactly if one of the rules fits inside it. -/
theorem ofLine?_ne_none_iff (h : rules.mapM Matcher.ofRule = .ok matchers) (line : Line) :
    ofLine? matchers line ≠ none ↔ ∃ rule ∈ rules, rule.FitsIn line.text := by
  rw [Ne, ofLine?_eq_none_iff]
  constructor
  · intro hsome
    push Not at hsome
    obtain ⟨matcher, hmatcher, hfind⟩ := hsome
    obtain ⟨rule, hrule, hof⟩ := Matcher.exists_rule_of_mapM_ofRule h matcher hmatcher
    refine ⟨rule, hrule, ?_⟩
    rwa [Ne, Matcher.find?_eq_none_iff hof, not_not] at hfind
  · rintro ⟨rule, hrule, hfits⟩ hnone
    obtain ⟨matcher, hmatcher, hof⟩ := Matcher.exists_matcher_of_mapM_ofRule h rule hrule
    exact (Matcher.find?_eq_none_iff hof).mp (hnone matcher hmatcher) hfits

/-- **The claim on a line is that of the first rule that fits inside it**, at the leftmost place
where it does. -/
theorem exists_of_ofLine? {line : Line} {claim : Claim}
    (h : List.Forall₂ (fun rule matcher => Matcher.ofRule rule = .ok matcher) rules matchers)
    (hclaim : ofLine? matchers line = some claim) :
    claim.line = line ∧ Matcher.ofRule claim.matcher.rule = .ok claim.matcher ∧
      (∃ earlier later, rules = earlier ++ claim.matcher.rule :: later ∧
        ∀ rule ∈ earlier, ¬ rule.FitsIn line.text) ∧
      ∃ s, claim.matcher.rule.LeftmostAt line.text s claim.groups := by
  -- the rules are tried one after the other, so this goes by induction on them
  induction h with
  | nil => exact absurd hclaim (by simp [ofLine?])
  | @cons rule matcher rules matchers hof _ ih =>
    have hrule := (Matcher.of_ofRule hof).1
    rw [ofLine?, List.findSome?_cons] at hclaim
    cases hfind : matcher.pattern.find? line.text with
    | some found =>
      rw [hfind, Option.map_some, Option.some.injEq] at hclaim
      subst hclaim
      refine ⟨rfl, ?_, ⟨[], rules, ?_, ?_⟩, found.skipped, ?_⟩
      · rw [hrule]
        exact hof
      · rw [hrule]
        rfl
      · exact fun other hother => absurd hother List.not_mem_nil
      · rw [hrule]
        exact Matcher.leftmostAt_of_find? hof hfind
    | none =>
      rw [hfind, Option.map_none] at hclaim
      obtain ⟨hline, hofClaim, ⟨earlier, later, hrules, hearlier⟩, hleftmost⟩ := ih hclaim
      refine ⟨hline, hofClaim, ⟨rule :: earlier, later, ?_, ?_⟩, hleftmost⟩
      · rw [hrules]
        rfl
      · rw [List.forall_mem_cons]
        exact ⟨(Matcher.find?_eq_none_iff hof).mp hfind, hearlier⟩

/-- A claim on a source is the claim on one of its lines. -/
theorem mem_ofSource_iff {claim : Claim} :
    claim ∈ ofSource matchers source ↔
      claim.line ∈ Line.ofSource source ∧ ofLine? matchers claim.line = some claim := by
  rw [ofSource_eq_ahead, mem_ahead, ← Line.ofSource_eq_ahead]

/-- The claims on a source stand in order and do not overlap. -/
theorem pairwise_ofSource (matchers : List Matcher) (source : Text) :
    (ofSource matchers source).Pairwise fun claim later => claim.line.stop ≤ later.line.start := by
  refine List.Pairwise.filterMap _ ?_ (Line.pairwise_placeFrom 0 source.lines)
  intro line later hle claim hclaim claim' hclaim'
  rw [(ofLine?_eq_some hclaim).1, (ofLine?_eq_some hclaim').1]
  exact hle

/-- **The claims on the lines of a source.**  The lines make up the source one behind the other.
The claims stand in order, each on one of the lines, and do not overlap.  A line is claimed exactly
if one of the rules fits inside its own text; the first of these rules has it, and the groups are
those of this rule's leftmost match in the line. -/
theorem ofSource_on_lines (h : rules.mapM Matcher.ofRule = .ok matchers) (source : Text) :
    Line.Cover source (Line.ofSource source) ∧
    ((ofSource matchers source).Pairwise fun claim later =>
      claim.line.stop ≤ later.line.start) ∧
    (∀ claim ∈ ofSource matchers source,
      claim.line ∈ Line.ofSource source ∧ claim.line.start < claim.line.stop) ∧
    (∀ line ∈ Line.ofSource source, (∃ claim ∈ ofSource matchers source, claim.line = line) ↔
      ∃ rule ∈ rules, rule.FitsIn line.text) ∧
    ∀ claim ∈ ofSource matchers source,
      Matcher.ofRule claim.matcher.rule = .ok claim.matcher ∧
      (∃ earlier later, rules = earlier ++ claim.matcher.rule :: later ∧
        ∀ rule ∈ earlier, ¬ rule.FitsIn claim.line.text) ∧
      ∃ s, claim.matcher.rule.LeftmostAt claim.line.text s claim.groups := by
  refine ⟨Line.cover_ofSource source, pairwise_ofSource matchers source, ?_, ?_, ?_⟩
  · intro claim hclaim
    obtain ⟨hline, -⟩ := mem_ofSource_iff.mp hclaim
    exact ⟨hline, Line.start_lt_stop_of_mem hline⟩
  · intro line hline
    rw [← ofLine?_ne_none_iff h, Option.ne_none_iff_exists']
    constructor
    · rintro ⟨claim, hclaim, rfl⟩
      exact ⟨claim, (mem_ofSource_iff.mp hclaim).2⟩
    · rintro ⟨claim, hclaim⟩
      refine ⟨claim, ?_, (ofLine?_eq_some hclaim).1⟩
      rw [ofSource, List.mem_filterMap]
      exact ⟨line, hline, hclaim⟩
  · intro claim hclaim
    obtain ⟨-, hofLine⟩ := mem_ofSource_iff.mp hclaim
    exact (exists_of_ofLine? (Matcher.forall₂_of_mapM_ofRule h) hofLine).2

/-- A search with a newline in it fits inside no line, though the text holds it.  Where two rules
fit, the first one has the line, and an empty line is not claimed. -/
theorem ofSource_on_lines_newline :
    let rules : List Rule := [⟨"[line]b\n4".toList, .line, .mark, 1, []⟩,
      ⟨"[line][num]".toList, .line, .mark, 2, []⟩, ⟨"[line]b".toList, .line, .mark, 3, []⟩]
    ∃ matchers, rules.mapM Matcher.ofRule = .ok matchers ∧
      (ofSource matchers "a12 3\n\nb\n4b".toList).map
          (fun claim => (claim.line, claim.matcher.rule.number, claim.groups))
        = [(⟨0, "a12 3\n".toList⟩, 2, [some "12".toList]), (⟨7, "b\n".toList⟩, 3, []),
            (⟨9, "4b".toList⟩, 2, [some "4".toList])] ∧
      (∃ rule ∈ rules, rule.FitsIn "4b".toList) ∧ ¬ ∃ rule ∈ rules, rule.FitsIn "\n".toList := by
  intro rules
  have h : rules.mapM Matcher.ofRule = .ok
      [⟨⟨"[line]b\n4".toList, .line, .mark, 1, []⟩, ⟨[[.char 'b', .char '\n', .char '4']]⟩, []⟩,
        ⟨⟨"[line][num]".toList, .line, .mark, 2, []⟩, ⟨[[.wildcard .number]]⟩, []⟩,
        ⟨⟨"[line]b".toList, .line, .mark, 3, []⟩, ⟨[[.char 'b']]⟩, []⟩] := by decide
  obtain ⟨-, -, -, hclaimed, -⟩ := ofSource_on_lines h "a12 3\n\nb\n4b".toList
  have hlast : (⟨9, "4b".toList⟩ : Line) ∈ Line.ofSource "a12 3\n\nb\n4b".toList := by decide
  have hempty : (⟨6, "\n".toList⟩ : Line) ∈ Line.ofSource "a12 3\n\nb\n4b".toList := by decide
  refine ⟨_, h, by decide, ?_, ?_⟩
  · rw [← hclaimed ⟨9, "4b".toList⟩ hlast]
    decide
  · rw [← hclaimed ⟨6, "\n".toList⟩ hempty]
    decide

end Claim

end RuleSweep
