/-
# Readings of a span

Pieces read a span from left to right: a character reads itself, and a wildcard reads any
text that it may find.  A sequence of pieces can have many readings of the beginnings of a
text, because a run of digits can be cut short.  The matcher `Piece.fit?` tries them from
the longest run down, and this module says what it answers:

* `Piece.reads_of_fit?` : its answer is a reading;
* `Piece.fit?_ne_none_of_reads` : it has an answer as soon as there is a reading;
* `Piece.runLengths_le_of_fit?` : no other reading has longer runs of digits, when the
  lengths of the runs are compared from left to right.
-/
import Mathlib.Data.List.Basic
import Mathlib.Data.List.Forall2
import Mathlib.Data.List.Lex
import RuleSweep.Pattern.Search

namespace RuleSweep

/-! ## What a wildcard may find -/

namespace Wildcard

/-- A text that a wildcard may find. -/
def Finds : Wildcard → Text → Prop
  | .number, t => t ≠ [] ∧ ∀ d ∈ t, isDigit d = true
  | .ideograph, t => ∃ d, isIdeograph d = true ∧ t = [d]

/-- What a wildcard finds is not empty. -/
theorem Finds.ne_nil {w : Wildcard} {t : Text} (h : w.Finds t) : t ≠ [] := by
  cases w with
  | number => exact h.1
  | ideograph =>
    obtain ⟨d, -, rfl⟩ := h
    exact List.cons_ne_nil d []

/-- A single digit is a run of digits. -/
theorem finds_digit {d : Char} (hd : isDigit d = true) : number.Finds [d] :=
  ⟨List.cons_ne_nil d [], by simpa using hd⟩

/-- A digit in front of a run of digits makes it longer. -/
theorem Finds.cons {d : Char} {run : Text} (hd : isDigit d = true) (h : number.Finds run) :
    number.Finds (d :: run) :=
  ⟨List.cons_ne_nil d run, List.forall_mem_cons.mpr ⟨hd, h.2⟩⟩

/-- A run of digits without its first digit, if any is left. -/
theorem Finds.tail {d : Char} {run : Text} (h : number.Finds (d :: run)) (hrun : run ≠ []) :
    number.Finds run :=
  ⟨hrun, fun e he => h.2 e (List.mem_cons_of_mem d he)⟩

end Wildcard

/-! ## The longest run -/

section LongestRun

variable {α : Type} {goOn : Text → Option α}

/-- If no run is answered, the text behind no run of digits goes on. -/
theorem longestRun_eq_none {text : Text} (h : longestRun goOn text = none) :
    ∀ run rest, Wildcard.number.Finds run → text = run ++ rest → goOn rest = none := by
  induction text with
  | nil =>
    intro run rest hrun htext
    exact absurd (List.append_eq_nil_iff.mp htext.symm).1 hrun.ne_nil
  | cons d text ih =>
    intro run rest hrun htext
    cases run with
    | nil => exact absurd rfl hrun.ne_nil
    | cons e run =>
      rw [List.cons_append, List.cons.injEq] at htext
      obtain ⟨rfl, rfl⟩ := htext
      rw [longestRun, if_pos (hrun.2 d List.mem_cons_self)] at h
      cases htail : longestRun goOn (run ++ rest) with
      | some found => simp [htail] at h
      | none =>
        simp only [htail, Option.map_eq_none_iff] at h
        -- a single digit is tried last, all longer runs are those of the tail
        cases run with
        | nil => exact h
        | cons e run => exact ih htail (e :: run) rest (hrun.tail (List.cons_ne_nil e run)) rfl

/-- The run that is answered is a run of digits at the beginning of the text, the text
behind it goes on as answered, and behind no longer run does it go on. -/
theorem longestRun_eq_some {text run : Text} {answer : α}
    (h : longestRun goOn text = some (run, answer)) :
    Wildcard.number.Finds run ∧ ∃ rest, text = run ++ rest ∧ goOn rest = some answer ∧
      ∀ run' rest', Wildcard.number.Finds run' → text = run' ++ rest' →
        run.length < run'.length → goOn rest' = none := by
  induction text generalizing run with
  | nil => simp [longestRun] at h
  | cons d text ih =>
    by_cases hd : isDigit d = true
    · rw [longestRun, if_pos hd] at h
      cases htail : longestRun goOn text with
      | some found =>
        obtain ⟨shorter, answer'⟩ := found
        simp only [htail, Option.some.injEq, Prod.mk.injEq] at h
        obtain ⟨rfl, rfl⟩ := h
        obtain ⟨hrun, rest, htext, hrest, hlongest⟩ := ih htail
        refine ⟨hrun.cons hd, rest, by rw [htext, List.cons_append], hrest, ?_⟩
        intro run' rest' hrun' htext' hlt
        cases run' with
        | nil => simp at hlt
        | cons e run' =>
          rw [List.cons_append, List.cons.injEq] at htext'
          have hlt' : shorter.length < run'.length := by simpa using hlt
          have hne : run' ≠ [] := List.ne_nil_of_length_pos (by omega)
          exact hlongest run' rest' (hrun'.tail hne) htext'.2 hlt'
      | none =>
        simp only [htail, Option.map_eq_some_iff, Prod.mk.injEq] at h
        obtain ⟨answer', hrest, rfl, rfl⟩ := h
        -- a longer run would be one of the tail, where none is answered
        refine ⟨Wildcard.finds_digit hd, text, rfl, hrest, ?_⟩
        intro run' rest' hrun' htext' hlt
        cases run' with
        | nil => simp at hlt
        | cons e run' =>
          rw [List.cons_append, List.cons.injEq] at htext'
          have hne : run' ≠ [] := List.ne_nil_of_length_pos (by simpa using hlt)
          exact longestRun_eq_none htail run' rest' (hrun'.tail hne) htext'.2
    · rw [longestRun, if_neg hd] at h
      exact absurd h (by simp)

end LongestRun

namespace Piece

/-! ## Readings -/

/-- A reading of a span by pieces, with what each wildcard finds in it. -/
inductive Reads : List Piece → List Text → Text → Prop
  /-- No pieces read the empty span. -/
  | nil : Reads [] [] []
  /-- A character reads itself. -/
  | char {pieces : List Piece} {captures : List Text} {span : Text} (c : Char)
      (rest : Reads pieces captures span) : Reads (.char c :: pieces) captures (c :: span)
  /-- A wildcard reads what it may find. -/
  | wildcard {pieces : List Piece} {captures : List Text} {span : Text} {w : Wildcard}
      {found : Text} (finds : w.Finds found) (rest : Reads pieces captures span) :
      Reads (.wildcard w :: pieces) (found :: captures) (found ++ span)

/-- The lengths of the runs among what wildcards found. -/
def runLengths : List Wildcard → List Text → List Nat
  | .number :: order, run :: captures => run.length :: runLengths order captures
  | .ideograph :: order, _ :: captures => runLengths order captures
  | _, _ => []

/-- In a reading every wildcard finds something that it may find. -/
theorem Reads.forall₂_finds {pieces : List Piece} {captures : List Text} {span : Text}
    (h : Reads pieces captures span) :
    List.Forall₂ Wildcard.Finds (wildcards pieces) captures := by
  induction h with
  | nil => exact .nil
  | char c _ ih => exact ih
  | wildcard finds _ ih => exact .cons finds ih

/-- At least one piece reads at least one character. -/
theorem Reads.span_ne_nil {pieces : List Piece} {captures : List Text} {span : Text}
    (h : Reads pieces captures span) (hpieces : pieces ≠ []) : span ≠ [] := by
  cases h with
  | nil => exact absurd rfl hpieces
  | char c _ => exact List.cons_ne_nil c _
  | wildcard finds _ =>
    intro hspan
    exact finds.ne_nil (List.append_eq_nil_iff.mp hspan).1

/-! ## The matcher -/

/-- The matcher on a character. -/
theorem fit?_char_cons (c d : Char) (pieces : List Piece) (rest : Text) :
    fit? (.char c :: pieces) (d :: rest)
      = if c = d then (fit? pieces rest).map fun fit => ⟨fit.length + 1, fit.captures⟩
        else none := rfl

/-- The matcher on an ideograph wildcard. -/
theorem fit?_ideograph_cons (d : Char) (pieces : List Piece) (rest : Text) :
    fit? (.wildcard .ideograph :: pieces) (d :: rest)
      = if isIdeograph d then
          (fit? pieces rest).map fun fit => ⟨fit.length + 1, [d] :: fit.captures⟩
        else none := rfl

/-- The matcher on a number wildcard. -/
theorem fit?_number (pieces : List Piece) (text : Text) :
    fit? (.wildcard .number :: pieces) text
      = (longestRun (fit? pieces) text).map fun (run, fit) =>
          ⟨run.length + fit.length, run :: fit.captures⟩ := rfl

/-- What the matcher answers is a reading of as many characters as it says. -/
theorem reads_of_fit? {pieces : List Piece} {text : Text} {fit : Fit}
    (h : fit? pieces text = some fit) :
    ∃ span rest, text = span ++ rest ∧ span.length = fit.length ∧
      Reads pieces fit.captures span := by
  induction pieces generalizing text fit with
  | nil =>
    simp only [fit?, Option.some.injEq] at h
    subst h
    exact ⟨[], text, rfl, rfl, .nil⟩
  | cons piece pieces ih =>
    cases piece with
    | char c =>
      cases text with
      | nil => simp [fit?] at h
      | cons d text =>
        rw [fit?_char_cons] at h
        by_cases hcd : c = d
        · simp only [if_pos hcd, Option.map_eq_some_iff] at h
          obtain ⟨inner, hinner, rfl⟩ := h
          obtain ⟨span, rest, rfl, hlength, hreads⟩ := ih hinner
          subst hcd
          exact ⟨c :: span, rest, rfl, by simp [hlength], .char c hreads⟩
        · rw [if_neg hcd] at h
          exact absurd h (by simp)
    | wildcard w =>
      cases w with
      | number =>
        rw [fit?_number, Option.map_eq_some_iff] at h
        obtain ⟨⟨run, inner⟩, hrun, rfl⟩ := h
        obtain ⟨hfinds, behind, rfl, hinner, -⟩ := longestRun_eq_some hrun
        obtain ⟨span, rest, rfl, hlength, hreads⟩ := ih hinner
        exact ⟨run ++ span, rest, by rw [List.append_assoc], by simp [hlength],
          .wildcard hfinds hreads⟩
      | ideograph =>
        cases text with
        | nil => simp [fit?] at h
        | cons d text =>
          rw [fit?_ideograph_cons] at h
          by_cases hd : isIdeograph d = true
          · simp only [if_pos hd, Option.map_eq_some_iff] at h
            obtain ⟨inner, hinner, rfl⟩ := h
            obtain ⟨span, rest, rfl, hlength, hreads⟩ := ih hinner
            exact ⟨[d] ++ span, rest, rfl, by simp [hlength],
              .wildcard ⟨d, hd, rfl⟩ hreads⟩
          · rw [if_neg hd] at h
            exact absurd h (by simp)

/-- Where the beginning of a text has a reading, the matcher has an answer. -/
theorem fit?_ne_none_of_reads {pieces : List Piece} {captures : List Text} {span : Text}
    (h : Reads pieces captures span) (rest : Text) : fit? pieces (span ++ rest) ≠ none := by
  induction h with
  | nil => simp [fit?]
  | char c _ ih =>
    rw [List.cons_append, fit?_char_cons, if_pos rfl]
    simpa using ih
  | @wildcard pieces captures span w found finds _ ih =>
    cases w with
    | number =>
      rw [fit?_number, Ne, Option.map_eq_none_iff]
      intro hnone
      exact ih (longestRun_eq_none hnone found (span ++ rest) finds (List.append_assoc ..))
    | ideograph =>
      obtain ⟨d, hd, rfl⟩ := finds
      rw [List.append_assoc, List.singleton_append, fit?_ideograph_cons, if_pos hd]
      simpa using ih

/-- **The matcher is greedy.**  Compared with any other reading of a beginning of the text,
the lengths of its runs are the greatest from left to right. -/
theorem runLengths_le_of_fit? {pieces : List Piece} {captures : List Text} {span rest : Text}
    (h : Reads pieces captures span) {fit : Fit} (hfit : fit? pieces (span ++ rest) = some fit) :
    runLengths (wildcards pieces) captures ≤ runLengths (wildcards pieces) fit.captures := by
  induction h generalizing fit with
  | nil =>
    rw [fit?, Option.some.injEq] at hfit
    rw [← hfit]
  | char c _ ih =>
    rw [List.cons_append, fit?_char_cons, if_pos rfl, Option.map_eq_some_iff] at hfit
    obtain ⟨inner, hinner, rfl⟩ := hfit
    have hle := ih hinner
    exact hle
  | @wildcard pieces captures span w found finds reads ih =>
    cases w with
    | number =>
      rw [fit?_number, Option.map_eq_some_iff] at hfit
      obtain ⟨⟨run, inner⟩, hrun, rfl⟩ := hfit
      obtain ⟨-, behind, htext, hinner, hlongest⟩ := longestRun_eq_some hrun
      rw [List.append_assoc] at htext
      show found.length :: runLengths (wildcards pieces) captures
        ≤ run.length :: runLengths (wildcards pieces) inner.captures
      rcases Nat.lt_trichotomy found.length run.length with hlt | heq | hgt
      · exact le_of_lt (List.Lex.rel hlt)
      · -- runs of the same length are the same, and what lies behind them decides
        obtain ⟨rfl, rfl⟩ := List.append_inj htext heq
        exact List.cons_le_cons found.length (ih hinner)
      · have hnone : fit? pieces (span ++ rest) = none :=
          hlongest found (span ++ rest) finds (by rw [List.append_assoc]) hgt
        exact absurd hnone (fit?_ne_none_of_reads reads rest)
    | ideograph =>
      obtain ⟨d, hd, rfl⟩ := finds
      rw [List.append_assoc, List.singleton_append, fit?_ideograph_cons, if_pos hd,
        Option.map_eq_some_iff] at hfit
      obtain ⟨inner, hinner, rfl⟩ := hfit
      exact ih hinner

end Piece

end RuleSweep
