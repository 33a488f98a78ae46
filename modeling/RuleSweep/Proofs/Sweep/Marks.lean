/-
# Marks

A mark is a stretch of the new text that a rule has marked (`Result.marks`).  As long as every
stretch stays as it is, the marks on a source are those on its lines, moved to where the lines
are (`marks_sweep`), and every mark lies inside one line.  A sweep keeps nothing but what holds
nothing to be found, so it makes a segment of another kind exactly if some pattern is found in
the source: `exists_not_kept_iff`.
-/
import RuleSweep.Proofs.Sweep.Kept
import RuleSweep.Proofs.Sweep.Lines

namespace RuleSweep

/-- A marked stretch of a text: where it begins, and what it holds. -/
structure Mark where
  /-- The position of its first character. -/
  start : Nat
  /-- What it holds. -/
  text : Text
  deriving DecidableEq, Repr

/-- The position right after a mark. -/
def Mark.stop (mark : Mark) : Nat :=
  mark.start + mark.text.length

/-- A mark lies inside a line. -/
def Mark.Inside (mark : Mark) (line : Line) : Prop :=
  line.start ≤ mark.start ∧ mark.stop ≤ line.stop

instance (mark : Mark) (line : Line) : Decidable (mark.Inside line) :=
  inferInstanceAs (Decidable (_ ∧ _))

/-- The marked ones among segments that stand one after the other from a position on. -/
def Segment.marksFrom (start : Nat) : List Segment → List Mark
  | [] => []
  | ⟨.added, text⟩ :: later => ⟨start, text⟩ :: marksFrom (start + text.length) later
  | ⟨_, text⟩ :: later => marksFrom (start + text.length) later

/-- What is marked in the new text. -/
def Result.marks (result : Result) : List Mark :=
  Segment.marksFrom 0 result.segments

namespace Segment

/-- A segment that is not marked only moves the marks behind it. -/
theorem marksFrom_cons_of_ne {kind : SegmentKind} (h : kind ≠ .added) (start : Nat) (text : Text)
    (later : List Segment) :
    marksFrom start (⟨kind, text⟩ :: later) = marksFrom (start + text.length) later := by
  cases kind with
  | kept => rfl
  | added => exact absurd rfl h
  | replaced => rfl

/-- The marks of segments that follow one another. -/
theorem marksFrom_append (start : Nat) (front back : List Segment) :
    marksFrom start (front ++ back)
      = marksFrom start front ++ marksFrom (start + (textOf front).length) back := by
  induction front generalizing start with
  | nil => rfl
  | cons segment front ih =>
    have hlength : start + (textOf (segment :: front)).length
        = start + segment.text.length + (textOf front).length := by
      rw [textOf_cons, List.length_append, Nat.add_assoc]
    obtain ⟨kind, text⟩ := segment
    rw [hlength, List.cons_append]
    by_cases hkind : kind = .added
    · subst hkind
      rw [marksFrom, marksFrom, ih, List.cons_append]
    · rw [marksFrom_cons_of_ne hkind, marksFrom_cons_of_ne hkind, ih]

/-- Gluing changes no mark. -/
theorem marksFrom_glue (start : Nat) (front back : List Segment) :
    marksFrom start (glue front back)
      = marksFrom start front ++ marksFrom (start + (textOf front).length) back := by
  unfold glue
  split
  · next text more later hlast =>
    have hfront : front = front.dropLast ++ [⟨.kept, text⟩] :=
      (List.dropLast_append_getLast? _ hlast).symm
    generalize front.dropLast = before at hfront
    subst hfront
    have hkept : SegmentKind.kept ≠ .added := by decide
    have hnil : marksFrom (start + (textOf before).length) [⟨.kept, text⟩] = [] :=
      marksFrom_cons_of_ne hkept _ text []
    have hlength : (textOf (before ++ [⟨.kept, text⟩])).length
        = (textOf before).length + text.length := by
      rw [textOf_append, List.length_append, textOf_cons, List.length_append]
      rfl
    rw [marksFrom_append, marksFrom_cons_of_ne hkept, marksFrom_append, hnil, List.append_nil,
      marksFrom_cons_of_ne hkept, hlength, List.length_append, ← Nat.add_assoc, ← Nat.add_assoc]
  · exact marksFrom_append start _ _

/-- A mark lies within the text of its segments. -/
theorem bounds_of_mem_marksFrom {start : Nat} {segments : List Segment} {mark : Mark}
    (h : mark ∈ marksFrom start segments) :
    start ≤ mark.start ∧ mark.stop ≤ start + (textOf segments).length := by
  induction segments generalizing start with
  | nil => exact absurd h List.not_mem_nil
  | cons segment later ih =>
    obtain ⟨kind, text⟩ := segment
    rw [textOf_cons, List.length_append]
    show start ≤ mark.start ∧ mark.stop ≤ start + (text.length + (textOf later).length)
    by_cases hkind : kind = .added
    · subst hkind
      rw [marksFrom, List.mem_cons] at h
      rcases h with rfl | hlater
      · show start ≤ start ∧ start + text.length ≤ start + (text.length + (textOf later).length)
        omega
      · have hbounds := ih hlater
        omega
    · rw [marksFrom_cons_of_ne hkind] at h
      have hbounds := ih h
      omega

/-- Every mark is that of a marked segment. -/
theorem exists_segment_of_mem_marksFrom {start : Nat} {segments : List Segment} {mark : Mark}
    (h : mark ∈ marksFrom start segments) : ⟨.added, mark.text⟩ ∈ segments := by
  induction segments generalizing start with
  | nil => exact absurd h List.not_mem_nil
  | cons segment later ih =>
    obtain ⟨kind, text⟩ := segment
    by_cases hkind : kind = .added
    · subst hkind
      rw [marksFrom, List.mem_cons] at h
      rcases h with rfl | hlater
      · exact List.mem_cons_self
      · exact List.mem_cons_of_mem _ (ih hlater)
    · rw [marksFrom_cons_of_ne hkind] at h
      exact List.mem_cons_of_mem _ (ih h)

/-- Every marked segment has a mark. -/
theorem exists_mark_of_mem {segments : List Segment} {segment : Segment} (h : segment ∈ segments)
    (hkind : segment.kind = .added) (start : Nat) : ∃ mark, mark ∈ marksFrom start segments := by
  induction segments generalizing start with
  | nil => exact absurd h List.not_mem_nil
  | cons first later ih =>
    obtain ⟨kind, text⟩ := first
    by_cases hfirst : kind = .added
    · subst hfirst
      exact ⟨⟨start, text⟩, List.mem_cons_self⟩
    · rw [marksFrom_cons_of_ne hfirst]
      rcases List.mem_cons.mp h with rfl | hlater
      · exact absurd hkind hfirst
      · exact ih hlater (start + text.length)

/-- The marks of parts that are glued together are those of the parts, if each part makes up
the text that it is for. -/
theorem marksFrom_foldr_glue {part : Text → List Segment} {texts : List Text}
    (h : ∀ text ∈ texts, textOf (part text) = text) (start : Nat) :
    marksFrom start ((texts.map part).foldr glue [])
      = (Line.placeFrom start texts).flatMap fun line => marksFrom line.start (part line.text) := by
  induction texts generalizing start with
  | nil => rfl
  | cons text texts ih =>
    rw [List.forall_mem_cons] at h
    rw [List.map_cons, List.foldr_cons, marksFrom_glue, h.1, ih h.2, Line.placeFrom,
      List.flatMap_cons]

end Segment

/-! ## Marks on lines -/

namespace Line

/-- Lines that are placed from a position on begin there or behind it. -/
theorem le_start_of_mem_placeFrom {texts : List Text} {start : Nat} {line : Line}
    (h : line ∈ placeFrom start texts) : start ≤ line.start := by
  induction texts generalizing start with
  | nil => exact absurd h List.not_mem_nil
  | cons text texts ih =>
    rcases List.mem_cons.mp h with rfl | hlater
    · exact Nat.le_refl start
    · have hle := ih hlater
      omega

/-- Of two lines that are placed one after the other, one ends before the other begins. -/
theorem apart_of_mem_placeFrom {texts : List Text} {start : Nat} {line other : Line}
    (hline : line ∈ placeFrom start texts) (hother : other ∈ placeFrom start texts) :
    line = other ∨ line.stop ≤ other.start ∨ other.stop ≤ line.start := by
  induction texts generalizing start with
  | nil => exact absurd hline List.not_mem_nil
  | cons text texts ih =>
    rcases List.mem_cons.mp hline with rfl | hline
    · rcases List.mem_cons.mp hother with rfl | hother
      · exact Or.inl rfl
      · exact Or.inr (Or.inl (le_start_of_mem_placeFrom hother))
    · rcases List.mem_cons.mp hother with rfl | hother
      · exact Or.inr (Or.inr (le_start_of_mem_placeFrom hline))
      · exact ih hline hother

end Line

section Marking

variable {matchers : List Matcher} (hsolid : ∀ matcher ∈ matchers, matcher.pattern.Solid)
  (hline : ∀ matcher ∈ matchers, matcher.pattern.WithinLine)
  (hmarks : ∀ matcher ∈ matchers, matcher.rule.replaces = false)

include hsolid hmarks in
/-- Where all rules only mark, the text stays as it is. -/
theorem textOf_sweep_of_marks (source : Text) :
    Segment.textOf (sweep matchers source) = source := by
  rw [sweep_eq_map_segment,
    textOf_of_stays fun stretch hstretch => stays_of_mem_cut hsolid hmarks hstretch,
    flatten_span_cut hsolid]

include hsolid hline hmarks in
/-- **The marks on a source are the marks on its lines.** -/
theorem marks_sweep (source : Text) :
    Segment.marksFrom 0 (sweep matchers source)
      = (Line.ofSource source).flatMap fun line =>
          Segment.marksFrom line.start (sweep matchers line.text) := by
  rw [sweep_eq_foldr_lines hsolid hline]
  exact Segment.marksFrom_foldr_glue
    (fun text _ => textOf_sweep_of_marks hsolid hmarks text) 0

end Marking

/-! ## Where something is found -/

namespace Pattern

variable {pattern : Pattern}

/-- Where a pattern is found nowhere, it does not fit at any place. -/
theorem hit?_eq_none_of_find? {before after : Text}
    (h : pattern.find? (before ++ after) = none) : pattern.hit? after = none := by
  have hhit := find?_eq_none_iff.mp h before.length
  rwa [List.drop_left] at hhit

/-- Where a solid pattern is found nowhere, it is found in no part either. -/
theorem find?_eq_none_of_append (hsolid : pattern.Solid) {before span rest : Text}
    (h : pattern.find? (before ++ span ++ rest) = none) : pattern.find? span = none := by
  apply find?_eq_none hsolid
  intro earlier later heq _
  have hsplit : before ++ span ++ rest = before ++ earlier ++ (later ++ rest) := by
    rw [heq]
    simp only [List.append_assoc]
  rw [hsplit] at h
  exact hit?_eq_none_of_append (hit?_eq_none_of_find? h)

end Pattern

/-- A segment of a tiling stands for a span of the source. -/
theorem Tiles.exists_standsFor {matchers : List Matcher} {behind : Text} {spans : List Text}
    {segments : List Segment} (h : Tiles matchers behind spans segments) {segment : Segment}
    (hmem : segment ∈ segments) :
    ∃ before span rest, span ≠ [] ∧ behind ++ spans.flatten = before ++ span ++ rest ∧
      StandsFor matchers before span rest segment := by
  induction spans generalizing behind segments with
  | nil =>
    cases segments with
    | nil => exact absurd hmem List.not_mem_nil
    | cons _ _ => exact absurd h id
  | cons span spans ih =>
    cases segments with
    | nil => exact absurd h id
    | cons first later =>
      obtain ⟨hspan, hfirst, hlater⟩ := h
      rw [List.flatten_cons]
      rcases List.mem_cons.mp hmem with rfl | hmem
      · exact ⟨behind, span, spans.flatten, hspan, (List.append_assoc _ _ _).symm, hfirst⟩
      · rw [← List.append_assoc]
        exact ih hlater hmem

section Found

variable {matchers : List Matcher} (hsolid : ∀ matcher ∈ matchers, matcher.pattern.Solid)
  (hline : ∀ matcher ∈ matchers, matcher.pattern.WithinLine)

include hsolid in
/-- What stands for a span otherwise than by keeping it was found there. -/
theorem StandsFor.exists_find? {before span rest : Text} {segment : Segment}
    (h : StandsFor matchers before span rest segment) (hkind : segment.kind ≠ .kept) :
    ∃ matcher ∈ matchers, matcher.pattern.find? (before ++ span ++ rest) ≠ none := by
  have hfits : ∀ matcher : Matcher, ∀ hit, matcher.pattern.hit? (span ++ rest) = some hit →
      matcher.pattern.find? (before ++ span ++ rest) ≠ none := by
    intro matcher hit hhit hnone
    rw [List.append_assoc] at hnone
    rw [Pattern.hit?_eq_none_of_find? hnone] at hhit
    exact Option.some_ne_none hit hhit.symm
  have hinside : ∀ matcher ∈ matchers, ∀ found, matcher.pattern.find? span = some found →
      matcher.pattern.find? (before ++ span ++ rest) ≠ none := by
    intro matcher hmatcher found hfound hnone
    rw [Pattern.find?_eq_none_of_append (hsolid matcher hmatcher) hnone] at hfound
    exact Option.some_ne_none found hfound.symm
  cases h with
  | kept => exact absurd rfl hkind
  | marked mem _ _ hit => exact ⟨_, mem, hfits _ _ hit⟩
  | replaced mem _ _ hit => exact ⟨_, mem, hfits _ _ hit⟩
  | markedLine mem _ _ _ fits => exact ⟨_, mem, hinside _ mem _ fits⟩
  | replacedLine mem _ _ _ fits => exact ⟨_, mem, hinside _ mem _ fits⟩

include hsolid hline in
/-- If a sweep only keeps, nothing is to be found. -/
theorem find?_eq_none_of_all_kept {source : Text}
    (h : ∀ segment ∈ sweep matchers source, segment.kind = .kept) :
    ∀ matcher ∈ matchers, matcher.pattern.find? source = none := by
  have hstrides := strides_cut hsolid source
  have hspans := flatten_span_cut hsolid source
  have hchain := hstrides.isChain
  have hclear : Clear matchers [] source := fun hends _ => absurd hends (by decide)
  rw [sweep_eq_map_segment] at h
  intro matcher hmatcher
  -- neighbours are not both kept, so there is at most one stretch
  rcases hcut : cut matchers source with - | ⟨first, - | ⟨second, others⟩⟩
  · rw [hcut] at hspans
    rw [← hspans]
    exact Pattern.find?_eq_none (hsolid matcher hmatcher)
      fun before after heq hafter => absurd (List.append_eq_nil_iff.mp heq.symm).2 hafter
  · rw [hcut] at h hspans hstrides
    have hkept := Stretch.eq_kept (h first.segment List.mem_cons_self)
    have hsource : first.segment.text = source := by
      rw [← hspans, hkept]
      exact (List.append_nil _).symm
    rw [hsource] at hkept
    rw [hkept] at hstrides
    exact hstrides.find?_eq_none hsolid hline hclear List.mem_cons_self matcher hmatcher
  · rw [hcut] at h hchain
    have hfirst := h first.segment List.mem_cons_self
    have hsecond := h second.segment (List.mem_cons_of_mem _ List.mem_cons_self)
    exact absurd ⟨hfirst, hsecond⟩ (List.isChain_cons_cons.mp hchain).1

include hsolid hline in
/-- **A sweep does more than keep exactly if something is to be found in the source.** -/
theorem exists_not_kept_iff (source : Text) :
    (∃ segment ∈ sweep matchers source, segment.kind ≠ .kept) ↔
      ∃ matcher ∈ matchers, matcher.pattern.find? source ≠ none := by
  constructor
  · rintro ⟨segment, hsegment, hkind⟩
    obtain ⟨hflatten, htiles⟩ := tiles_sweep hsolid source
    obtain ⟨before, span, rest, -, hsplit, hstands⟩ := htiles.exists_standsFor hsegment
    rw [List.nil_append, hflatten] at hsplit
    rw [hsplit]
    exact hstands.exists_find? hsolid hkind
  · rintro ⟨matcher, hmatcher, hfind⟩
    by_contra hnone
    refine hfind (find?_eq_none_of_all_kept hsolid hline ?_ matcher hmatcher)
    intro segment hsegment
    by_contra hkind
    exact hnone ⟨segment, hsegment, hkind⟩

end Found

end RuleSweep
