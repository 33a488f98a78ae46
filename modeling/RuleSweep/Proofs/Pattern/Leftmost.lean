/-
# Leftmost search

A search answers the leftmost place where one of the alternatives fits, there the first
alternative that fits, and of that the greediest reading.  The main statement is
`Pattern.next?_ofSearch?`, which says so of the pattern of any search text; the others say
it of the three layers below: one alternative, all alternatives at one place, and all
places.
-/
import RuleSweep.Proofs.Pattern.Reading
import RuleSweep.Sweep.Candidate

namespace RuleSweep

/-! ## One alternative -/

namespace Piece

/-- Pieces fit a text if they have a reading of one of its beginnings. -/
def Fits (pieces : List Piece) (text : Text) : Prop :=
  ∃ captures span, Reads pieces captures span ∧ span <+: text

/-- Pieces that fit a text also fit it with more behind it. -/
theorem Fits.append {pieces : List Piece} {text : Text} (h : Fits pieces text) (more : Text) :
    Fits pieces (text ++ more) := by
  obtain ⟨captures, span, hreads, hbegins⟩ := h
  exact ⟨captures, span, hreads, hbegins.trans (List.prefix_append text more)⟩

/-- The matcher has no answer exactly where the pieces do not fit. -/
theorem fit?_eq_none_iff {pieces : List Piece} {text : Text} :
    fit? pieces text = none ↔ ¬ Fits pieces text := by
  constructor
  · rintro hnone ⟨captures, span, hreads, rest, rfl⟩
    exact fit?_ne_none_of_reads hreads rest hnone
  · intro hfits
    cases hfit : fit? pieces text with
    | none => rfl
    | some fit =>
      obtain ⟨span, rest, rfl, -, hreads⟩ := reads_of_fit? hfit
      exact absurd ⟨fit.captures, span, hreads, List.prefix_append span rest⟩ hfits

end Piece

/-- What a wildcard has to do with its group: the group is empty, or holds something that
the wildcard may find. -/
def Wildcard.Fills (w : Wildcard) (group : Option Text) : Prop :=
  ∀ found ∈ group, w.Finds found

namespace Pattern

/-! ## All alternatives at one place -/

/-- How the first of several alternatives that fits reads the beginning of a text: the
alternatives before it do not fit, no other reading of it is greedier, and the groups of
all other alternatives are empty. -/
structure FirstFit (alternatives : List (List Piece)) (text span : Text) (groups : Groups)
    (earlier : List (List Piece)) (used : List Piece) (later : List (List Piece))
    (captures : List Text) : Prop where
  /-- The alternative that is used stands between the others. -/
  split : alternatives = earlier ++ used :: later
  /-- No earlier alternative fits. -/
  first : ∀ pieces ∈ earlier, ¬ Piece.Fits pieces text
  /-- The span is a beginning of the text. -/
  begins : span <+: text
  /-- The alternative reads the span. -/
  reads : Piece.Reads used captures span
  /-- No other reading of a beginning of the text has longer runs. -/
  greediest : ∀ captures' span', Piece.Reads used captures' span' → span' <+: text →
    Piece.runLengths (Piece.wildcards used) captures'
      ≤ Piece.runLengths (Piece.wildcards used) captures
  /-- What the wildcards of the alternative found stands between empty groups. -/
  groups_eq : groups = earlier.flatMap unused ++ captures.map some ++ later.flatMap unused

/-- An alternative that fits before all others. -/
theorem FirstFit.head {pieces : List Piece} {others : List (List Piece)} {text : Text}
    {fit : Fit} (hfit : Piece.fit? pieces text = some fit) :
    ∃ span, span.length = fit.length ∧ FirstFit (pieces :: others) text span
      (fit.captures.map some ++ others.flatMap unused) [] pieces others fit.captures := by
  obtain ⟨span, rest, rfl, hlength, hreads⟩ := Piece.reads_of_fit? hfit
  refine ⟨span, hlength, rfl, by simp, List.prefix_append span rest, hreads, ?_, rfl⟩
  rintro captures' span' hreads' ⟨rest', hrest'⟩
  rw [← hrest'] at hfit
  exact Piece.runLengths_le_of_fit? hreads' hfit

/-- An alternative that does not fit in front of the others. -/
theorem FirstFit.cons {alternatives earlier later : List (List Piece)} {text span : Text}
    {groups : Groups} {used : List Piece} {captures : List Text} {pieces : List Piece}
    (hpieces : ¬ Piece.Fits pieces text)
    (h : FirstFit alternatives text span groups earlier used later captures) :
    FirstFit (pieces :: alternatives) text span (unused pieces ++ groups)
      (pieces :: earlier) used later captures where
  split := by rw [h.split, List.cons_append]
  first := List.forall_mem_cons.mpr ⟨hpieces, h.first⟩
  begins := h.begins
  reads := h.reads
  greediest := h.greediest
  groups_eq := by simp [h.groups_eq]

/-- The groups are as many as the wildcards of all alternatives, and each is empty or holds
something that its wildcard may find. -/
theorem FirstFit.forall₂_fills {alternatives earlier later : List (List Piece)}
    {text span : Text} {groups : Groups} {used : List Piece} {captures : List Text}
    (h : FirstFit alternatives text span groups earlier used later captures) :
    List.Forall₂ Wildcard.Fills (alternatives.flatMap Piece.wildcards) groups := by
  have hunused : ∀ others : List (List Piece),
      List.Forall₂ Wildcard.Fills (others.flatMap Piece.wildcards)
        (others.flatMap unused) := by
    intro others
    induction others with
    | nil => exact .nil
    | cons pieces others ih =>
      rw [List.flatMap_cons, List.flatMap_cons]
      refine List.rel_append ?_ ih
      rw [unused, List.forall₂_map_right_iff, List.forall₂_same]
      intro w _ found hfound
      simp at hfound
  have hused : List.Forall₂ Wildcard.Fills (Piece.wildcards used) (captures.map some) := by
    rw [List.forall₂_map_right_iff]
    refine h.reads.forall₂_finds.imp ?_
    intro w found hfinds found' hfound'
    rw [Option.mem_some_iff] at hfound'
    exact hfound' ▸ hfinds
  rw [h.split, h.groups_eq, List.flatMap_append, List.flatMap_cons, ← List.append_assoc]
  exact List.rel_append (List.rel_append (hunused earlier) hused) (hunused later)

/-- No alternative is used exactly where none fits. -/
theorem firstFit?_eq_none_iff {alternatives : List (List Piece)} {text : Text} :
    firstFit? alternatives text = none ↔ ∀ pieces ∈ alternatives, ¬ Piece.Fits pieces text := by
  induction alternatives with
  | nil => simp [firstFit?]
  | cons pieces others ih =>
    rw [firstFit?, List.forall_mem_cons, ← ih, ← Piece.fit?_eq_none_iff]
    cases Piece.fit? pieces text with
    | none => simp
    | some fit => simp

/-- The alternative that is used is the first one that fits, with its greediest reading. -/
theorem firstFit?_eq_some {alternatives : List (List Piece)} {text : Text} {hit : Hit}
    (h : firstFit? alternatives text = some hit) :
    ∃ span earlier used later captures, span.length = hit.length ∧
      FirstFit alternatives text span hit.groups earlier used later captures := by
  induction alternatives generalizing hit with
  | nil => simp [firstFit?] at h
  | cons pieces others ih =>
    rw [firstFit?] at h
    cases hfit : Piece.fit? pieces text with
    | some fit =>
      simp only [hfit, Option.some.injEq] at h
      subst h
      obtain ⟨span, hlength, hfirst⟩ := FirstFit.head hfit
      exact ⟨span, [], pieces, others, fit.captures, hlength, hfirst⟩
    | none =>
      simp only [hfit, Option.map_eq_some_iff] at h
      obtain ⟨inner, hinner, rfl⟩ := h
      obtain ⟨span, earlier, used, later, captures, hlength, hfirst⟩ := ih hinner
      exact ⟨span, pieces :: earlier, used, later, captures, hlength,
        hfirst.cons (Piece.fit?_eq_none_iff.mp hfit)⟩

/-! ## All places -/

/-- Skipping characters in front of a text shifts the answer. -/
theorem findAfter_eq_map (pattern : Pattern) (skipped : Nat) (text : Text) :
    pattern.findAfter skipped text
      = (pattern.find? text).map fun found => ⟨skipped + found.skipped, found.hit⟩ := by
  induction text generalizing skipped with
  | nil => simp [find?, findAfter, Function.comp_def]
  | cons c rest ih =>
    rw [find?, findAfter, findAfter]
    cases pattern.hit? (c :: rest) with
    | some hit => simp
    | none =>
      show pattern.findAfter (skipped + 1) rest = (pattern.findAfter (0 + 1) rest).map _
      rw [ih (skipped + 1), ih (0 + 1), Option.map_map]
      congr 1
      funext found
      simp only [Function.comp, Find.mk.injEq, and_true]
      omega

/-- A search looks at the first place, and only then at the places behind it. -/
theorem find?_cons (pattern : Pattern) (c : Char) (rest : Text) :
    pattern.find? (c :: rest)
      = match pattern.hit? (c :: rest) with
        | some hit => some ⟨0, hit⟩
        | none => (pattern.find? rest).map fun found => ⟨found.skipped + 1, found.hit⟩ := by
  rw [find?, findAfter]
  cases pattern.hit? (c :: rest) with
  | some hit => rfl
  | none =>
    show pattern.findAfter (0 + 1) rest = _
    rw [findAfter_eq_map]
    congr 1
    funext found
    rw [Nat.zero_add, Nat.add_comm]

/-- A search has no answer exactly if the pattern fits at no place. -/
theorem find?_eq_none_iff {pattern : Pattern} {text : Text} :
    pattern.find? text = none ↔ ∀ s, pattern.hit? (text.drop s) = none := by
  induction text with
  | nil => simp [find?, findAfter]
  | cons c rest ih =>
    rw [find?_cons]
    constructor
    · intro hnone s
      cases hhere : pattern.hit? (c :: rest) with
      | some hit => simp [hhere] at hnone
      | none =>
        rw [hhere, Option.map_eq_none_iff] at hnone
        cases s with
        | zero => exact hhere
        | succ s => exact ih.mp hnone s
    · intro hnone
      have hhere : pattern.hit? (c :: rest) = none := hnone 0
      rw [hhere, Option.map_eq_none_iff]
      exact ih.mpr fun s => hnone (s + 1)

/-- A search answers how the pattern fits at the leftmost place where it fits. -/
theorem find?_eq_some_iff {pattern : Pattern} {text : Text} {found : Find} :
    pattern.find? text = some found ↔
      pattern.hit? (text.drop found.skipped) = some found.hit ∧
        ∀ s < found.skipped, pattern.hit? (text.drop s) = none := by
  induction text generalizing found with
  | nil =>
    obtain ⟨skipped, hit⟩ := found
    simp only [find?, findAfter, List.drop_nil, Option.map_eq_some_iff, Find.mk.injEq]
    constructor
    · rintro ⟨hit', hhit, rfl, rfl⟩
      exact ⟨hhit, by simp⟩
    · rintro ⟨hhit, hbefore⟩
      cases skipped with
      | zero => exact ⟨hit, hhit, rfl, rfl⟩
      | succ s =>
        have hnone := hbefore 0 (by omega)
        simp [hhit] at hnone
  | cons c rest ih =>
    obtain ⟨skipped, hit⟩ := found
    rw [find?_cons]
    cases hhere : pattern.hit? (c :: rest) with
    | some hit' =>
      cases skipped with
      | zero => simp [hhere]
      | succ s =>
        simp only [Option.some.injEq, Find.mk.injEq]
        constructor
        · rintro ⟨hzero, -⟩
          exact absurd hzero (by omega)
        · rintro ⟨-, hbefore⟩
          have hnone : pattern.hit? (c :: rest) = none := hbefore 0 (by omega)
          simp [hhere] at hnone
    | none =>
      simp only [Option.map_eq_some_iff, Find.mk.injEq]
      -- nothing fits here, so every place is one of the rest
      constructor
      · rintro ⟨⟨s, hit'⟩, hfound, rfl, rfl⟩
        obtain ⟨hhit, hbefore⟩ := ih.mp hfound
        refine ⟨hhit, ?_⟩
        intro s' hs'
        cases s' with
        | zero => exact hhere
        | succ s' => exact hbefore s' (by simpa using hs')
      · rintro ⟨hhit, hbefore⟩
        cases skipped with
        | zero => simp [hhere] at hhit
        | succ s =>
          exact ⟨⟨s, hit⟩, ih.mpr ⟨hhit, fun s' hs' => hbefore (s' + 1) (by simpa using hs')⟩,
            rfl, rfl⟩

/-! ## A search in a source -/

/-- There is no next candidate exactly if the pattern fits at no place behind the head. -/
theorem next?_eq_none_iff {pattern : Pattern} {head : Head} :
    Candidate.next? pattern head = none ↔ ∀ s, pattern.hit? (head.ahead.drop s) = none := by
  rw [Candidate.next?, Option.map_eq_none_iff, find?_eq_none_iff]

/-- The next candidate lies at the leftmost place behind the head where the pattern fits. -/
theorem next?_eq_some_iff {pattern : Pattern} {head : Head} {candidate : Candidate} :
    Candidate.next? pattern head = some candidate ↔
      ∃ s hit, pattern.hit? (head.ahead.drop s) = some hit ∧
        (∀ s' < s, pattern.hit? (head.ahead.drop s') = none) ∧
        candidate = ⟨head.position + s, (head.ahead.drop s).take hit.length, hit.groups⟩ := by
  rw [Candidate.next?, Option.map_eq_some_iff]
  constructor
  · rintro ⟨⟨s, hit⟩, hfound, rfl⟩
    obtain ⟨hhit, hbefore⟩ := find?_eq_some_iff.mp hfound
    exact ⟨s, hit, hhit, hbefore, rfl⟩
  · rintro ⟨s, hit, hhit, hbefore, rfl⟩
    exact ⟨⟨s, hit⟩, find?_eq_some_iff.mpr ⟨hhit, hbefore⟩, rfl⟩

/-- The alternatives of a search text, each read as characters and wildcards. -/
def readings (search : Text) : List (List Piece) :=
  (splitAlternatives search).map Piece.ofText

/-- A pattern holds the alternatives of its search text. -/
theorem alternatives_of_ofSearch? {search : Text} {pattern : Pattern}
    (h : ofSearch? search = some pattern) : pattern.alternatives = readings search := by
  rw [ofSearch?] at h
  split at h
  · exact absurd h (by simp)
  · next texts htexts =>
    rw [Option.some.injEq] at h
    subst h
    rw [readings]

/-- **A search is leftmost, takes the first alternative, and is greedy.**  Searched for
from a position on, the pattern of a search text is not found exactly if no alternative
fits at this position or behind it.  Otherwise it is found at the leftmost place where an
alternative fits, with the first alternative that fits there in its greediest reading, and
with one group for each wildcard. -/
theorem next?_ofSearch? {search : Text} {pattern : Pattern}
    (h : ofSearch? search = some pattern) (text : Text) (position : Nat) :
    (Candidate.next? pattern ⟨position, text.drop position⟩ = none ↔
      ∀ s ≥ position, ∀ pieces ∈ readings search, ¬ Piece.Fits pieces (text.drop s)) ∧
    ∀ candidate, Candidate.next? pattern ⟨position, text.drop position⟩ = some candidate →
      position ≤ candidate.start ∧
      (∀ s ≥ position, s < candidate.start →
        ∀ pieces ∈ readings search, ¬ Piece.Fits pieces (text.drop s)) ∧
      (∃ earlier used later captures,
        FirstFit (readings search) (text.drop candidate.start) candidate.text candidate.groups
          earlier used later captures) ∧
      List.Forall₂ Wildcard.Fills pattern.wildcards candidate.groups := by
  have halternatives := alternatives_of_ofSearch? h
  have hnone : ∀ t, pattern.hit? t = none ↔ ∀ pieces ∈ readings search, ¬ Piece.Fits pieces t := by
    intro t
    rw [hit?, firstFit?_eq_none_iff, halternatives]
  -- the search counts places from `position` on, the statement from the beginning
  constructor
  · rw [next?_eq_none_iff]
    constructor
    · intro hall s hs
      have hhere := hall (s - position)
      rw [List.drop_drop, Nat.add_sub_cancel' hs] at hhere
      exact (hnone _).mp hhere
    · intro hall s
      rw [List.drop_drop]
      exact (hnone _).mpr (hall (position + s) (Nat.le_add_right position s))
  · intro candidate hcandidate
    obtain ⟨s, hit, hhit, hbefore, rfl⟩ := next?_eq_some_iff.mp hcandidate
    rw [List.drop_drop] at hhit
    obtain ⟨span, earlier, used, later, captures, hlength, hfirst⟩ := firstFit?_eq_some hhit
    rw [halternatives] at hfirst
    have hspan : span = (text.drop (position + s)).take hit.length := by
      rw [← hlength]
      exact List.prefix_iff_eq_take.mp hfirst.begins
    refine ⟨Nat.le_add_right position s, ?_, ⟨earlier, used, later, captures, ?_⟩, ?_⟩
    · intro s' hs' hlt
      have hlt' : s' < position + s := hlt
      have hhere := hbefore (s' - position) (by omega)
      rw [List.drop_drop, Nat.add_sub_cancel' hs'] at hhere
      exact (hnone _).mp hhere
    · rw [List.drop_drop, ← hspan]
      exact hfirst
    · rw [wildcards, halternatives]
      exact hfirst.forall₂_fills

/-- Two runs with a zero between them share the digits `1002`: the first run gives back
what it has to, and no more. -/
theorem next?_ofSearch?_shared_digits :
    ofSearch? "[num]0[num] [or] [cjk]".toList
      = some ⟨[[.wildcard .number, .char '0', .wildcard .number], [.wildcard .ideograph]]⟩ ∧
    ∃ earlier used later captures,
      FirstFit (readings "[num]0[num] [or] [cjk]".toList) ("a1002".toList.drop 1)
        "1002".toList [some "10".toList, some "2".toList, none] earlier used later captures := by
  have h : ofSearch? "[num]0[num] [or] [cjk]".toList
      = some ⟨[[.wildcard .number, .char '0', .wildcard .number], [.wildcard .ideograph]]⟩ := by
    decide
  exact ⟨h, ((next?_ofSearch? h "a1002".toList 0).2
    ⟨1, "1002".toList, [some "10".toList, some "2".toList, none]⟩ (by decide)).2.2.1⟩

end Pattern

end RuleSweep
