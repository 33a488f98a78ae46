/-
# Lines and claims ahead

A sweep that has come to some position has the text `behind` behind it and the text `ahead`
ahead of it.  The lines that begin ahead can be met one position after the other: a line
begins where nothing or a newline lies right behind.  These are the lines of the source
(`Line.ofSource_eq_ahead`), and the claims on them are the claims that a sweep still has to
deal with.  The claims ahead stay the same while the head moves up to the next of them
(`Claim.ahead_append`), and lose just this one when it is passed
(`Claim.ahead_eq_cons_of_start`).
-/
import Mathlib.Data.List.Basic
import RuleSweep.Sweep.Claim

namespace RuleSweep

namespace Text

/-- A text ends where a line begins: it is empty, or its last character is a newline. -/
def endsLine (behind : Text) : Bool :=
  behind.getLast?.all (· = '\n')

/-- Nothing lies behind the beginning of the first line. -/
theorem endsLine_nil : endsLine [] = true := rfl

/-- The character right behind decides whether a line begins. -/
theorem endsLine_append_singleton (behind : Text) (c : Char) :
    endsLine (behind ++ [c]) = decide (c = '\n') := by
  simp [endsLine]

/-- The line that a text begins with, the terminator included. -/
def firstLine : Text → Text
  | [] => []
  | c :: rest => if c = '\n' then [c] else c :: firstLine rest

/-- The first line is a beginning of the text. -/
theorem firstLine_prefix (t : Text) : firstLine t <+: t := by
  induction t with
  | nil => exact List.prefix_rfl
  | cons c rest ih =>
    rw [firstLine]
    split
    · exact List.prefix_append [c] rest
    · exact (List.prefix_cons_inj c).mpr ih

/-- The first line of a text that is not empty holds a character. -/
theorem firstLine_ne_nil {t : Text} (h : t ≠ []) : firstLine t ≠ [] := by
  cases t with
  | nil => exact absurd rfl h
  | cons c rest =>
    rw [firstLine]
    split <;> exact List.cons_ne_nil _ _

/-- The first line is the first of the lines. -/
theorem firstLine_of_lines {t line : Text} {others : List Text}
    (h : lines t = line :: others) : firstLine t = line := by
  induction t generalizing line others with
  | nil => simp [lines] at h
  | cons c rest ih =>
    rw [lines_cons] at h
    rw [firstLine]
    split at h
    · next hc =>
      rw [if_pos hc]
      exact (List.cons.inj h).1
    · next hc =>
      rw [if_neg hc]
      cases hlines : lines rest with
      | nil =>
        have hrest : rest = [] := by rw [← flatten_lines rest, hlines, List.flatten_nil]
        rw [hlines, consFirst] at h
        rw [hrest, firstLine, (List.cons.inj h).1]
      | cons first others' =>
        rw [hlines, consFirst] at h
        rw [ih hlines, (List.cons.inj h).1]

/-- The first line ends in a newline if something follows it. -/
theorem getLast?_of_firstLine {line rest : Text} (h : firstLine (line ++ rest) = line)
    (hrest : rest ≠ []) : line.getLast? = some '\n' := by
  induction line with
  | nil => exact absurd h (firstLine_ne_nil hrest)
  | cons c line ih =>
    rw [List.cons_append, firstLine] at h
    split at h
    · next hc =>
      rw [← (List.cons.inj h).2, hc]
      rfl
    · rw [List.getLast?_cons, ih (List.cons.inj h).2]
      rfl

/-- What follows a newline does not change the first line. -/
theorem firstLine_append {t : Text} (h : '\n' ∈ t) (later : Text) :
    firstLine (t ++ later) = firstLine t := by
  induction t with
  | nil => exact absurd h List.not_mem_nil
  | cons c t ih =>
    rw [List.cons_append, firstLine, firstLine]
    by_cases hc : c = '\n'
    · rw [if_pos hc, if_pos hc]
    · have hmem := (List.mem_cons.mp h).resolve_left (Ne.symm hc)
      rw [if_neg hc, if_neg hc, ih hmem]

/-- Every line but the last one ends in a newline. -/
theorem getLast?_of_mem_dropLast_lines (t : Text) :
    ∀ line ∈ (lines t).dropLast, line.getLast? = some '\n' := by
  induction t with
  | nil => exact fun line hline => absurd hline List.not_mem_nil
  | cons c t ih =>
    rw [lines_cons]
    split
    · next hc =>
      cases hlines : lines t with
      | nil => simp
      | cons first others =>
        rw [List.dropLast_cons_of_ne_nil (List.cons_ne_nil first others), List.forall_mem_cons,
          hc, ← hlines]
        exact ⟨rfl, ih⟩
    · next hc =>
      cases hlines : lines t with
      | nil => simp [consFirst]
      | cons first others =>
        rw [hlines] at ih
        rw [consFirst]
        by_cases hothers : others = []
        · simp [hothers]
        · rw [List.dropLast_cons_of_ne_nil hothers, List.forall_mem_cons] at ih ⊢
          refine ⟨?_, ih.2⟩
          rw [List.getLast?_cons, ih.1]
          rfl

end Text

/-! ## Lines -/

namespace Line

/-- The lines that begin ahead of a position, met one position after the other. -/
def ahead : (behind : Text) → Text → List Line
  | _, [] => []
  | behind, c :: rest =>
    if behind.endsLine then
      ⟨behind.length, Text.firstLine (c :: rest)⟩ :: ahead (behind ++ [c]) rest
    else ahead (behind ++ [c]) rest

/-- The lines of a text at their places, less the first one if it began earlier, are the
lines that begin ahead. -/
theorem drop_placeFrom_lines (behind t : Text) :
    (placeFrom behind.length t.lines).drop (if behind.endsLine then 0 else 1)
      = ahead behind t := by
  induction t generalizing behind with
  | nil => simp [Text.lines, placeFrom, ahead]
  | cons c rest ih =>
    have hrest := ih (behind ++ [c])
    rw [Text.endsLine_append_singleton, List.length_append, List.length_singleton] at hrest
    rw [ahead, Text.lines_cons, Text.firstLine]
    by_cases hc : c = '\n'
    · subst hc
      simp only [decide_true, if_true, List.drop_zero] at hrest
      rw [if_pos rfl, if_pos rfl, placeFrom, List.length_singleton, hrest]
      split <;> simp
    · simp only [hc, decide_false, if_false, Bool.false_eq_true] at hrest
      rw [if_neg hc, if_neg hc, ← hrest]
      cases hlines : Text.lines rest with
      | nil =>
        have hnil : rest = [] := by rw [← Text.flatten_lines rest, hlines, List.flatten_nil]
        subst hnil
        split <;> simp [Text.consFirst, placeFrom, Text.firstLine]
      | cons first others =>
        -- the character joins the first line of the rest, which no longer begins ahead
        have hstart : behind.length + (c :: first).length = behind.length + 1 + first.length := by
          rw [List.length_cons]
          omega
        rw [Text.firstLine_of_lines hlines, Text.consFirst, placeFrom, placeFrom, hstart]
        split <;> simp

/-- **The lines of a source are those that are met from its beginning on.** -/
theorem ofSource_eq_ahead (source : Text) : ofSource source = ahead [] source := by
  rw [← drop_placeFrom_lines, Text.endsLine_nil, if_pos rfl, List.drop_zero]
  rfl

/-- The lines that begin ahead are the first lines of what lies behind the places where a
line begins. -/
theorem mem_ahead {behind t : Text} {line : Line} :
    line ∈ ahead behind t ↔
      ∃ passed rest, t = passed ++ rest ∧ rest ≠ [] ∧ (behind ++ passed).endsLine = true ∧
        line = ⟨(behind ++ passed).length, rest.firstLine⟩ := by
  induction t generalizing behind with
  | nil =>
    simp only [ahead, List.not_mem_nil, false_iff]
    rintro ⟨passed, rest, heq, hrest, -, -⟩
    exact hrest (List.append_eq_nil_iff.mp heq.symm).2
  | cons c t ih =>
    have hstep : line ∈ ahead behind (c :: t) ↔
        (behind.endsLine = true ∧ line = ⟨behind.length, Text.firstLine (c :: t)⟩) ∨
          line ∈ ahead (behind ++ [c]) t := by
      rw [ahead]
      split <;> simp_all
    rw [hstep, ih]
    constructor
    · rintro (⟨hends, rfl⟩ | ⟨passed, rest, rfl, hrest, hends, rfl⟩)
      · exact ⟨[], c :: t, rfl, List.cons_ne_nil c t, by rwa [List.append_nil], by simp⟩
      · rw [← List.append_cons] at hends ⊢
        exact ⟨c :: passed, rest, rfl, hrest, hends, rfl⟩
    · rintro ⟨passed, rest, heq, hrest, hends, rfl⟩
      cases passed with
      | nil =>
        rw [List.nil_append] at heq
        subst heq
        rw [List.append_nil] at hends ⊢
        exact Or.inl ⟨hends, rfl⟩
      | cons d passed =>
        rw [List.cons_append, List.cons.injEq] at heq
        obtain ⟨rfl, rfl⟩ := heq
        rw [List.append_cons] at hends ⊢
        exact Or.inr ⟨passed, rest, rfl, hrest, hends, rfl⟩

/-- A line that begins ahead begins at the position or behind it. -/
theorem length_le_start_of_mem_ahead {behind t : Text} {line : Line}
    (h : line ∈ ahead behind t) : behind.length ≤ line.start := by
  obtain ⟨passed, rest, -, -, -, rfl⟩ := mem_ahead.mp h
  rw [List.length_append]
  exact Nat.le_add_right behind.length passed.length

/-- The lines that begin ahead stand in order. -/
theorem pairwise_ahead (behind t : Text) :
    (ahead behind t).Pairwise fun line other => line.start < other.start := by
  induction t generalizing behind with
  | nil => exact .nil
  | cons c t ih =>
    rw [ahead]
    split
    · refine .cons ?_ (ih (behind ++ [c]))
      intro other hother
      have hle := length_le_start_of_mem_ahead hother
      rw [List.length_append, List.length_singleton] at hle
      show behind.length < other.start
      omega
    · exact ih (behind ++ [c])

/-- When the head moves on, the lines ahead are those that are passed and those that are
still ahead. -/
theorem ahead_append (behind passed rest : Text) :
    ∃ lines, ahead behind (passed ++ rest) = lines ++ ahead (behind ++ passed) rest ∧
      ∀ line ∈ lines, line.start < (behind ++ passed).length := by
  induction passed generalizing behind with
  | nil => exact ⟨[], by simp, by simp⟩
  | cons c passed ih =>
    obtain ⟨lines, hlines, hstart⟩ := ih (behind ++ [c])
    rw [List.cons_append, List.append_cons behind, ahead, hlines]
    split
    · refine ⟨_ :: lines, rfl, List.forall_mem_cons.mpr ⟨?_, hstart⟩⟩
      simp
    · exact ⟨lines, rfl, hstart⟩

/-- No line begins inside the rest of a line. -/
theorem ahead_append_firstLine {behind t : Text} (hends : behind.endsLine = false) :
    ahead behind t = ahead (behind ++ t.firstLine) (t.drop t.firstLine.length) := by
  induction t generalizing behind with
  | nil => simp [ahead]
  | cons c t ih =>
    rw [ahead, if_neg (by simp [hends]), Text.firstLine]
    split
    · rfl
    · next hc =>
      have hends' : (behind ++ [c]).endsLine = false := by
        rw [Text.endsLine_append_singleton, decide_eq_false hc]
      rw [List.append_cons behind c (Text.firstLine t), List.length_cons, List.drop_succ_cons,
        ih hends']

/-- Where a line begins, it is the first line ahead, and the others begin behind it. -/
theorem ahead_eq_cons {behind t : Text} (hends : behind.endsLine = true) (ht : t ≠ []) :
    ahead behind t = ⟨behind.length, t.firstLine⟩
      :: ahead (behind ++ t.firstLine) (t.drop t.firstLine.length) := by
  cases t with
  | nil => exact absurd rfl ht
  | cons c t =>
    rw [ahead, if_pos hends, Text.firstLine]
    split
    · rfl
    · next hc =>
      have hends' : (behind ++ [c]).endsLine = false := by
        rw [Text.endsLine_append_singleton, decide_eq_false hc]
      rw [List.append_cons behind c (Text.firstLine t), List.length_cons, List.drop_succ_cons,
        ahead_append_firstLine hends']

end Line

/-! ## Claims -/

namespace Claim

/-- A claim on a line is the claim of a matcher whose pattern fits inside the line. -/
theorem ofLine?_eq_some {matchers : List Matcher} {line : Line} {claim : Claim}
    (h : ofLine? matchers line = some claim) :
    claim.line = line ∧ claim.matcher ∈ matchers ∧
      ∃ found, claim.matcher.pattern.find? line.text = some found ∧
        claim.groups = found.hit.groups := by
  obtain ⟨matcher, hmatcher, hclaim⟩ := List.exists_of_findSome?_eq_some h
  rw [Option.map_eq_some_iff] at hclaim
  obtain ⟨found, hfound, rfl⟩ := hclaim
  exact ⟨rfl, hmatcher, found, hfound, rfl⟩

/-- A line is not claimed exactly if no pattern fits inside it. -/
theorem ofLine?_eq_none_iff {matchers : List Matcher} {line : Line} :
    ofLine? matchers line = none ↔
      ∀ matcher ∈ matchers, matcher.pattern.find? line.text = none := by
  rw [ofLine?, List.findSome?_eq_none_iff]
  simp only [Option.map_eq_none_iff]

/-- The claims on the lines that begin ahead of a position. -/
def ahead (matchers : List Matcher) (behind t : Text) : List Claim :=
  (Line.ahead behind t).filterMap (ofLine? matchers)

/-- The claims on the lines of a source are those ahead of its beginning. -/
theorem ofSource_eq_ahead (matchers : List Matcher) (source : Text) :
    ofSource matchers source = ahead matchers [] source := by
  rw [ofSource, ahead, Line.ofSource_eq_ahead]

/-- A claim ahead is a claim on a line that begins ahead. -/
theorem mem_ahead {matchers : List Matcher} {behind t : Text} {claim : Claim} :
    claim ∈ ahead matchers behind t ↔
      claim.line ∈ Line.ahead behind t ∧ ofLine? matchers claim.line = some claim := by
  rw [ahead, List.mem_filterMap]
  constructor
  · rintro ⟨line, hline, hclaim⟩
    rw [(ofLine?_eq_some hclaim).1]
    exact ⟨hline, hclaim⟩
  · rintro ⟨hline, hclaim⟩
    exact ⟨claim.line, hline, hclaim⟩

/-- The claims ahead stand in order. -/
theorem pairwise_ahead (matchers : List Matcher) (behind t : Text) :
    (ahead matchers behind t).Pairwise fun claim other =>
      claim.line.start < other.line.start := by
  refine List.Pairwise.filterMap _ ?_ (Line.pairwise_ahead behind t)
  intro line other hlt claim hclaim claim' hclaim'
  rw [(ofLine?_eq_some hclaim).1, (ofLine?_eq_some hclaim').1]
  exact hlt

/-- The claims ahead stay the same when the head moves on, but not past one of them. -/
theorem ahead_append {matchers : List Matcher} {behind passed rest : Text}
    (h : ∀ claim ∈ ahead matchers behind (passed ++ rest),
      (behind ++ passed).length ≤ claim.line.start) :
    ahead matchers behind (passed ++ rest) = ahead matchers (behind ++ passed) rest := by
  obtain ⟨lines, hlines, hstart⟩ := Line.ahead_append behind passed rest
  have hnone : lines.filterMap (ofLine? matchers) = [] := by
    rw [List.filterMap_eq_nil_iff]
    intro line hline
    cases hclaim : ofLine? matchers line with
    | none => rfl
    | some claim =>
      have hmem : claim ∈ ahead matchers behind (passed ++ rest) := by
        rw [ahead, hlines, List.filterMap_append, List.mem_append, List.mem_filterMap]
        exact Or.inl ⟨line, hline, hclaim⟩
      have hle := h claim hmem
      rw [(ofLine?_eq_some hclaim).1] at hle
      exact absurd (hstart line hline) (by omega)
  rw [ahead, hlines, List.filterMap_append, hnone, List.nil_append, ahead]

/-- A claim that begins at the position itself is a claim on the line that begins there,
and the other claims begin behind that line. -/
theorem ahead_eq_cons_of_start {matchers : List Matcher} {behind t : Text} {claim : Claim}
    {later : List Claim} (h : ahead matchers behind t = claim :: later)
    (hstart : claim.line.start = behind.length) :
    behind.endsLine = true ∧ t ≠ [] ∧ claim.line = ⟨behind.length, t.firstLine⟩ ∧
      later = ahead matchers (behind ++ t.firstLine) (t.drop t.firstLine.length) := by
  have hmem : claim ∈ ahead matchers behind t := by rw [h]; exact List.mem_cons_self
  obtain ⟨hline, hclaim⟩ := mem_ahead.mp hmem
  obtain ⟨passed, rest, rfl, hrest, hends, heq⟩ := Line.mem_ahead.mp hline
  have hpassed : passed = [] := by
    rw [heq, List.length_append] at hstart
    exact List.length_eq_zero_iff.mp (by simpa using hstart)
  subst hpassed
  rw [List.append_nil] at hends heq
  rw [List.nil_append] at h ⊢
  refine ⟨hends, hrest, heq, ?_⟩
  rw [ahead, Line.ahead_eq_cons hends hrest, ← heq, List.filterMap_cons, hclaim,
    List.cons.injEq] at h
  exact h.2.symm

end Claim

end RuleSweep
