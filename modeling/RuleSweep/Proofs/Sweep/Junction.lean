/-
# A sweep goes line by line

A source that ends in a newline can be swept apart from what follows it: behind the
newline nothing is looked at (`eventAt?_append`), and what follows only has to know that
a line begins there (`eventAt?_congr`).  So the segments of the two parts, glued together
where both are kept, are the segments of the whole: `sweep_append` and, in the end,
`evaluate_append`.  Cut at every newline, this says that the lines of a source can be
swept one by one: `sweep_eq_foldr_lines`.
-/
import RuleSweep.Proofs.Sweep.Partition
import RuleSweep.Proofs.Sweep.Plain

namespace RuleSweep

/-! ## Gluing segments -/

namespace Segment

/-- Segments followed by segments; a kept segment at the end and a kept one at the
beginning become one. -/
def glue (front back : List Segment) : List Segment :=
  match front.getLast?, back with
  | some ⟨.kept, text⟩, ⟨.kept, more⟩ :: later => front.dropLast ++ ⟨.kept, text ++ more⟩ :: later
  | _, _ => front ++ back

/-- Behind no segments there is nothing to glue. -/
theorem nil_glue (back : List Segment) : glue [] back = back := rfl

/-- In front of no segments there is nothing to glue. -/
theorem glue_nil (front : List Segment) : glue front [] = front := by
  rw [glue, List.append_nil]
  intro text more later _ hnil
  exact absurd hnil.symm (List.cons_ne_nil _ _)

/-- A segment that is not kept stays apart from what is in front of it. -/
theorem glue_cons {segment : Segment} (h : segment.kind ≠ .kept) (front later : List Segment) :
    glue front (segment :: later) = front ++ segment :: later := by
  rw [glue]
  rintro text more later' _ heq
  rw [List.cons.injEq] at heq
  exact h (by rw [heq.1])

/-- What lies in front of a segment that is not kept is not glued. -/
theorem append_cons_glue {segment : Segment} (h : segment.kind ≠ .kept)
    (front later back : List Segment) :
    glue (front ++ segment :: later) back = front ++ segment :: glue later back := by
  cases later with
  | nil =>
    obtain ⟨kind, text⟩ := segment
    rw [nil_glue, glue, List.append_assoc, List.singleton_append]
    rintro text' more later' hlast -
    rw [List.getLast?_concat, Option.some.injEq, mk.injEq] at hlast
    exact h hlast.1
  | cons next later =>
    -- what is glued is the last segment, which lies behind the one that is not kept
    have hlast : (front ++ segment :: next :: later).getLast? = (next :: later).getLast? := by
      rw [List.append_cons, List.getLast?_append_of_ne_nil _ (List.cons_ne_nil next later)]
    have hinit : (front ++ segment :: next :: later).dropLast
        = front ++ segment :: (next :: later).dropLast := by
      rw [List.append_cons, List.dropLast_append_of_ne_nil (List.cons_ne_nil next later),
        ← List.append_cons]
    unfold glue
    rw [hlast, hinit]
    split <;> simp

/-- Gluing loses no segment that is not kept. -/
theorem countP_glue {kind : SegmentKind} (h : kind ≠ .kept) (front back : List Segment) :
    (glue front back).countP (·.kind = kind)
      = front.countP (·.kind = kind) + back.countP (·.kind = kind) := by
  unfold glue
  split
  · next text more later hlast =>
    have hfront : front = front.dropLast ++ [⟨.kept, text⟩] :=
      (List.dropLast_append_getLast? _ hlast).symm
    rw [List.countP_append, List.countP_cons_of_neg (by simpa using Ne.symm h)]
    conv_rhs => rw [hfront]
    rw [List.countP_append, List.countP_cons_of_neg (by simpa using Ne.symm h), List.countP_nil,
      List.countP_cons_of_neg (by simpa using Ne.symm h), Nat.add_zero]
  · exact List.countP_append

end Segment

/-! ## Runs that are kept -/

/-- The segments that stand for a run that is kept: one, or none if the run is empty. -/
def Segment.keeping (run : Text) : List Segment :=
  (Stretch.keeping run).map Stretch.segment

namespace Segment

/-- An empty run has no segment. -/
theorem keeping_nil : keeping [] = [] := rfl

/-- A run that is not empty has one segment. -/
theorem keeping_of_ne_nil {run : Text} (h : run ≠ []) : keeping run = [⟨.kept, run⟩] := by
  rw [keeping, Stretch.keeping, if_neg h]
  rfl

/-- A run can be glued to the front in two pieces. -/
theorem glue_keeping_append (run more : Text) (back : List Segment) :
    glue (keeping (run ++ more)) back = glue (keeping run) (glue (keeping more) back) := by
  by_cases hrun : run = []
  · rw [hrun, keeping_nil, nil_glue, List.nil_append]
  by_cases hmore : more = []
  · rw [hmore, keeping_nil, nil_glue, List.append_nil]
  rw [keeping_of_ne_nil hrun, keeping_of_ne_nil hmore,
    keeping_of_ne_nil (List.append_ne_nil_of_left_ne_nil hrun more)]
  rcases back with - | ⟨⟨kind, text⟩, later⟩
  · rw [glue_nil, glue_nil]
    rfl
  · cases kind with
    | kept =>
      show [(⟨.kept, run ++ more ++ text⟩ : Segment)] ++ later
        = [⟨.kept, run ++ (more ++ text)⟩] ++ later
      rw [List.append_assoc run more text]
    | added => rfl
    | replaced => rfl

end Segment

/-! ## The segments of the plain walk -/

/-- The segments of the plain walk from a position on. -/
def segmentsFrom (matchers : List Matcher) (skip : Nat) (run behind t : Text) : List Segment :=
  (plainFrom matchers skip run behind t).map Stretch.segment

section SegmentsFrom

variable {matchers : List Matcher} {run behind t : Text} {c : Char}

/-- At the end the run is all there is. -/
theorem segmentsFrom_nil (skip : Nat) :
    segmentsFrom matchers skip run behind [] = Segment.keeping run := by
  rw [segmentsFrom, plainFrom, Segment.keeping]

/-- What belongs to an event is skipped. -/
theorem segmentsFrom_skip (skip : Nat) :
    segmentsFrom matchers (skip + 1) run behind (c :: t)
      = segmentsFrom matchers skip run (behind ++ [c]) t := by
  rw [segmentsFrom, plainFrom, segmentsFrom]

/-- An event ends the run and gives a segment. -/
theorem segmentsFrom_event {event : Stretch}
    (hevent : eventAt? matchers behind (c :: t) = some event) :
    segmentsFrom matchers 0 run behind (c :: t)
      = Segment.keeping run ++ event.segment
          :: segmentsFrom matchers (event.span.length - 1) [] (behind ++ [c]) t := by
  rw [segmentsFrom, plainFrom, hevent]
  simp only
  rw [List.map_append, List.map_cons, Segment.keeping, segmentsFrom]

/-- Where there is nothing, the character joins the run. -/
theorem segmentsFrom_quiet (hevent : eventAt? matchers behind (c :: t) = none) :
    segmentsFrom matchers 0 run behind (c :: t)
      = segmentsFrom matchers 0 (run ++ [c]) (behind ++ [c]) t := by
  rw [segmentsFrom, plainFrom, hevent]
  rfl

/-- Nothing that is met is kept. -/
theorem kind_segment_eventAt? {event : Stretch} (h : eventAt? matchers behind t = some event) :
    event.segment.kind ≠ .kept := by
  rw [eventAt?] at h
  cases hclaim : claimAt? matchers behind t with
  | some claim =>
    rw [hclaim] at h
    simp only [Option.some.injEq] at h
    rw [← h, Stretch.segment, Claim.kind_segment]
    exact claim.matcher.kind_ne_kept
  | none =>
    rw [hclaim] at h
    simp only [Option.map_eq_some_iff] at h
    obtain ⟨entry, -, rfl⟩ := h
    exact entry.1.kind_ne_kept

/-- A run that is carried along is glued to the front in the end. -/
theorem segmentsFrom_run :
    segmentsFrom matchers 0 run behind t
      = Segment.glue (Segment.keeping run) (segmentsFrom matchers 0 [] behind t) := by
  induction t generalizing run behind with
  | nil => rw [segmentsFrom_nil, segmentsFrom_nil, Segment.keeping_nil, Segment.glue_nil]
  | cons c t ih =>
    cases hevent : eventAt? matchers behind (c :: t) with
    | none =>
      rw [segmentsFrom_quiet hevent, segmentsFrom_quiet hevent, ih, List.nil_append,
        Segment.glue_keeping_append, ← ih]
    | some event =>
      rw [segmentsFrom_event hevent, segmentsFrom_event hevent, Segment.keeping_nil,
        List.nil_append, Segment.glue_cons (kind_segment_eventAt? hevent)]

end SegmentsFrom

/-! ## What lies behind -/

section Behind

variable {matchers : List Matcher} {behind behind' t : Text}

/-- A claim depends on what lies behind only by its position. -/
theorem claimAt?_congr (h : behind.endsLine = behind'.endsLine) :
    claimAt? matchers behind' t
      = (claimAt? matchers behind t).map fun claim =>
          ⟨⟨behind'.length, claim.line.text⟩, claim.matcher, claim.groups⟩ := by
  rw [claimAt?, claimAt?, h]
  split
  · rw [List.map_findSome?]
    congr 1
    funext matcher
    rw [Function.comp, Option.map_map]
    rfl
  · rfl

/-- What an event takes and what it gives does not depend on its position, only on
whether a line begins there. -/
theorem eventAt?_congr (h : behind.endsLine = behind'.endsLine) :
    (eventAt? matchers behind' t).map (fun event => (event.span, event.segment))
      = (eventAt? matchers behind t).map fun event => (event.span, event.segment) := by
  rw [eventAt?, eventAt?, claimAt?_congr h]
  cases claimAt? matchers behind t with
  | some claim => rfl
  | none =>
    simp only [Option.map_none, Option.map_map]
    rfl

/-- The segments ahead depend on what lies behind only by whether a line begins there. -/
theorem segmentsFrom_congr (h : behind.endsLine = behind'.endsLine) (skip : Nat) (run : Text) :
    segmentsFrom matchers skip run behind' t = segmentsFrom matchers skip run behind t := by
  induction t generalizing behind behind' skip run with
  | nil => rw [segmentsFrom_nil, segmentsFrom_nil]
  | cons c t ih =>
    -- from the next position on, the same character lies right behind on both sides
    have hnext : (behind ++ [c]).endsLine = (behind' ++ [c]).endsLine := by
      rw [Text.endsLine_append_singleton, Text.endsLine_append_singleton]
    cases skip with
    | succ skip => rw [segmentsFrom_skip, segmentsFrom_skip, ih hnext]
    | zero =>
      have hcongr : (eventAt? matchers behind' (c :: t)).map _ = _ := eventAt?_congr h
      cases hevent : eventAt? matchers behind (c :: t) with
      | none =>
        rw [hevent, Option.map_none, Option.map_eq_none_iff] at hcongr
        rw [segmentsFrom_quiet hevent, segmentsFrom_quiet hcongr, ih hnext]
      | some event =>
        rw [hevent, Option.map_some, Option.map_eq_some_iff] at hcongr
        obtain ⟨event', hevent', heq⟩ := hcongr
        rw [Prod.mk.injEq] at heq
        rw [segmentsFrom_event hevent, segmentsFrom_event hevent', heq.1, heq.2, ih hnext]

end Behind

/-! ## What lies ahead -/

section Ahead

variable {matchers : List Matcher} {behind t : Text}

/-- **What follows a newline changes no event in front of it.** -/
theorem eventAt?_append (hline : ∀ matcher ∈ matchers, matcher.pattern.WithinLine)
    (h : '\n' ∈ t) (later : Text) :
    eventAt? matchers behind (t ++ later) = eventAt? matchers behind t := by
  have hclaim : claimAt? matchers behind (t ++ later) = claimAt? matchers behind t := by
    rw [claimAt?, claimAt?, Text.firstLine_append h]
  have hhits : hitsAt matchers (t ++ later) = hitsAt matchers t := by
    unfold hitsAt
    refine List.filterMap_congr fun matcher hmatcher => ?_
    rw [Pattern.hit?_append_of_mem (hline matcher (List.mem_of_mem_filter hmatcher)) h]
  rw [eventAt?, eventAt?, hclaim, hhits]
  cases claimAt? matchers behind t with
  | some claim => rfl
  | none =>
    cases hlongest : (hitsAt matchers t).argmax (·.2.length) with
    | none => rfl
    | some entry =>
      have hle := length_le_of_mem_hitsAt entry (List.argmax_mem hlongest)
      simp only [Option.map_some, Hit.toCandidate, List.take_append_of_le_length hle]

/-- An event takes no more characters than there are. -/
theorem length_span_eventAt? {event : Stretch} (h : eventAt? matchers behind t = some event) :
    event.span.length ≤ t.length := by
  rw [eventAt?] at h
  cases hclaim : claimAt? matchers behind t with
  | some claim =>
    rw [hclaim] at h
    simp only [Option.some.injEq] at h
    rw [claimAt?_eq] at hclaim
    split at hclaim
    · rw [← h, Stretch.span, (Claim.ofLine?_eq_some hclaim).1]
      exact (Text.firstLine_prefix t).length_le
    · exact absurd hclaim (by simp)
  | none =>
    rw [hclaim] at h
    simp only [Option.map_eq_some_iff] at h
    obtain ⟨entry, -, rfl⟩ := h
    exact List.length_take_le' _ _

/-- **The walk through a text that ends in a newline** makes its segments, whatever
follows; then it begins anew. -/
theorem segmentsFrom_append (hline : ∀ matcher ∈ matchers, matcher.pattern.WithinLine)
    (hends : t.endsLine = true) {skip : Nat} (hskip : skip ≤ t.length) (run later : Text) :
    segmentsFrom matchers skip run behind (t ++ later)
      = Segment.glue (segmentsFrom matchers skip run behind t)
          (segmentsFrom matchers 0 [] (behind ++ t) later) := by
  induction t generalizing behind skip run with
  | nil =>
    rw [Nat.le_zero.mp hskip, segmentsFrom_nil, List.nil_append, List.append_nil]
    exact segmentsFrom_run
  | cons c t ih =>
    have hrest : Text.endsLine t = true := by
      cases t with
      | nil => rfl
      | cons d t => exact hends
    have hnewline : '\n' ∈ c :: t := by
      cases hlast : (c :: t).getLast? with
      | none => exact absurd (List.getLast?_eq_none_iff.mp hlast) (List.cons_ne_nil c t)
      | some d =>
        rw [Text.endsLine, hlast, Option.all_some, decide_eq_true_eq] at hends
        exact hends ▸ List.mem_of_getLast? hlast
    have hbehind : behind ++ c :: t = behind ++ [c] ++ t := List.append_cons behind c t
    rw [List.length_cons] at hskip
    -- an event never reaches past the newline, so nothing is left to skip at the junction
    cases skip with
    | succ skip =>
      rw [List.cons_append, segmentsFrom_skip, segmentsFrom_skip, hbehind]
      exact ih hrest (by omega) run
    | zero =>
      have happend : eventAt? matchers behind (c :: t ++ later) = _ :=
        eventAt?_append hline hnewline later
      rw [List.cons_append] at happend ⊢
      cases hevent : eventAt? matchers behind (c :: t) with
      | none =>
        rw [segmentsFrom_quiet (happend.trans hevent), segmentsFrom_quiet hevent, hbehind]
        exact ih hrest (Nat.zero_le _) (run ++ [c])
      | some event =>
        have hle := length_span_eventAt? hevent
        have hspan : event.span.length - 1 ≤ t.length := by
          rw [List.length_cons] at hle
          omega
        rw [segmentsFrom_event (happend.trans hevent), segmentsFrom_event hevent, hbehind,
          Segment.append_cons_glue (kind_segment_eventAt? hevent), ih hrest hspan []]

end Ahead

/-! ## Sources cut at a newline -/

section Cut

variable {matchers : List Matcher} (hsolid : ∀ matcher ∈ matchers, matcher.pattern.Solid)
  (hline : ∀ matcher ∈ matchers, matcher.pattern.WithinLine)
include hsolid hline

/-- A sweep makes the segments of the plain walk from the beginning on. -/
theorem sweep_eq_segmentsFrom (source : Text) :
    sweep matchers source = segmentsFrom matchers 0 [] [] source := by
  rw [sweep_eq_map_segment, cut_eq_plainFrom hsolid hline, segmentsFrom]

/-- **A source that ends in a newline is swept apart from what follows it.** -/
theorem sweep_append {front : Text} (hends : front.endsLine = true) (back : Text) :
    sweep matchers (front ++ back)
      = Segment.glue (sweep matchers front) (sweep matchers back) := by
  have hbegins : Text.endsLine [] = front.endsLine := by rw [Text.endsLine_nil, hends]
  rw [sweep_eq_segmentsFrom hsolid hline, sweep_eq_segmentsFrom hsolid hline,
    sweep_eq_segmentsFrom hsolid hline,
    segmentsFrom_append hline hends (Nat.zero_le front.length) [] back, List.nil_append,
    segmentsFrom_congr hbegins]

/-- Texts of which all but the last end in a newline are swept one by one. -/
theorem sweep_flatten {parts : List Text}
    (h : ∀ part ∈ parts.dropLast, part.getLast? = some '\n') :
    sweep matchers parts.flatten = (parts.map (sweep matchers)).foldr Segment.glue [] := by
  induction parts with
  | nil => rfl
  | cons part parts ih =>
    rw [List.map_cons, List.foldr_cons, List.flatten_cons]
    by_cases hparts : parts = []
    · rw [hparts, List.flatten_nil, List.append_nil, List.map_nil, List.foldr_nil,
        Segment.glue_nil]
    · rw [List.dropLast_cons_of_ne_nil hparts, List.forall_mem_cons] at h
      have hends : part.endsLine = true := by rw [Text.endsLine, h.1]; rfl
      rw [sweep_append hsolid hline hends, ih h.2]

end Cut

/-- **The lines of a source are swept one by one.** -/
theorem sweep_eq_foldr_lines {matchers : List Matcher}
    (hsolid : ∀ matcher ∈ matchers, matcher.pattern.Solid)
    (hline : ∀ matcher ∈ matchers, matcher.pattern.WithinLine) (source : Text) :
    sweep matchers source = (source.lines.map (sweep matchers)).foldr Segment.glue [] := by
  rw [← sweep_flatten hsolid hline (Text.getLast?_of_mem_dropLast_lines source),
    Text.flatten_lines]

/-! ## Evaluations -/

/-- A rule list that gives a rule set can be evaluated on every source: the result holds
the segments of the sweep, and it counts them. -/
theorem evaluate_of_ofList {list : Text} {set : RuleSet} (h : RuleSet.ofList list = .ok set)
    (source : Text) :
    ∃ result, evaluate source list = .ok result ∧
      result.segments = sweep set.matchers source ∧
      result.matchCount = (sweep set.matchers source).countP (·.kind = .added) ∧
      result.replaceCount = (sweep set.matchers source).countP (·.kind = .replaced) := by
  cases source with
  | nil => exact ⟨.empty, rfl, rfl, rfl, rfl⟩
  | cons c rest =>
    refine ⟨Result.assemble (sweep set.matchers (c :: rest)) set.skipped, ?_,
      Result.segments_assemble _ _, Result.counts_assemble _ _⟩
    rw [evaluate, evaluateBy, h]
    rfl

/-- A result has the text of the sweep, unless source and result are empty. -/
theorem text_of_evaluate {list source : Text} {result : Result}
    (h : evaluate source list = .ok result) :
    source = [] ∧ result.text = [] ∨
      ∃ set, RuleSet.ofList list = .ok set ∧
        result.text = Segment.textOf (sweep set.matchers source) := by
  by_cases hsource : source = []
  · left
    rw [evaluate, evaluateBy, hsource] at h
    have hempty : Result.empty = result := Except.ok.inj h
    rw [← hempty]
    exact ⟨hsource, rfl⟩
  · right
    cases hset : RuleSet.ofList list with
    | error e =>
      rw [evaluate, evaluateBy, if_neg (by simpa using hsource), hset] at h
      exact absurd h (by simp)
    | ok set =>
      obtain ⟨found, hfound, hsegments, -⟩ := evaluate_of_ofList hset source
      rw [h, Except.ok.injEq] at hfound
      exact ⟨set, rfl, by rw [Result.text, hfound, hsegments]⟩

/-- The rules that a rule set skips are skipped whenever it is applied. -/
theorem skipped_of_evaluate {list source : Text} {set : RuleSet} {result : Result}
    (h : RuleSet.ofList list = .ok set) (hsource : source ≠ [])
    (hresult : evaluate source list = .ok result) : result.skipped = set.skipped := by
  rw [evaluate, evaluateBy, if_neg (by simpa using hsource), h] at hresult
  have hassemble : Result.assemble (sweep set.matchers source) set.skipped = result :=
    Except.ok.inj hresult
  rw [← hassemble, Result.skipped_assemble]

/-- **A source that ends in a newline is evaluated apart from what follows it.**  The
segments of the two parts, glued together, are those of the whole, and the counters add up;
in the end, the whole is what its lines give one by one. -/
theorem evaluate_append {list : Text} {set : RuleSet} (h : RuleSet.ofList list = .ok set)
    {front : Text} (hfront : front.getLast? = some '\n') (back : Text) :
    ∃ first second whole, evaluate front list = .ok first ∧ evaluate back list = .ok second ∧
      evaluate (front ++ back) list = .ok whole ∧
      whole.segments = Segment.glue first.segments second.segments ∧
      whole.matchCount = first.matchCount + second.matchCount ∧
      whole.replaceCount = first.replaceCount + second.replaceCount ∧
      whole.segments
        = ((front ++ back).lines.map (sweep set.matchers)).foldr Segment.glue [] := by
  have hsolid := RuleSet.solid_of_ofList h
  have hline := RuleSet.withinLine_of_ofList h
  have hends : front.endsLine = true := by rw [Text.endsLine, hfront]; rfl
  obtain ⟨first, hfirst, hfs, hfm, hfr⟩ := evaluate_of_ofList h front
  obtain ⟨second, hsecond, hss, hsm, hsr⟩ := evaluate_of_ofList h back
  obtain ⟨whole, hwhole, hws, hwm, hwr⟩ := evaluate_of_ofList h (front ++ back)
  have happend := sweep_append hsolid hline hends back
  refine ⟨first, second, whole, hfirst, hsecond, hwhole, ?_, ?_, ?_, ?_⟩
  · rw [hws, hfs, hss, happend]
  · rw [hwm, hfm, hsm, happend, Segment.countP_glue (by decide)]
  · rw [hwr, hfr, hsr, happend, Segment.countP_glue (by decide)]
  · rw [hws, sweep_eq_foldr_lines hsolid hline]

/-- Two runs that meet at the junction become one. -/
theorem evaluate_append_two_lines :
    ∃ first second whole,
      evaluate "1 b\n".toList "[num]".toList = .ok first ∧
      evaluate "c 2".toList "[num]".toList = .ok second ∧
      evaluate "1 b\nc 2".toList "[num]".toList = .ok whole ∧
      whole.segments = Segment.glue first.segments second.segments ∧
      whole.segments
        = [⟨.added, "1".toList⟩, ⟨.kept, " b\nc ".toList⟩, ⟨.added, "2".toList⟩] := by
  have hset : RuleSet.ofList "[num]".toList
      = .ok ⟨[⟨⟨"[num]".toList, .text, .mark, 1, "[num]".toList⟩, ⟨[[.wildcard .number]]⟩, []⟩],
          []⟩ := by decide
  have hfront : "1 b\n".toList.getLast? = some '\n' := by decide
  obtain ⟨first, second, whole, hfirst, hsecond, hwhole, hsegments, -⟩ :=
    evaluate_append hset hfront "c 2".toList
  refine ⟨first, second, whole, hfirst, hsecond, hwhole, hsegments, ?_⟩
  have hevaluate : evaluate "1 b\nc 2".toList "[num]".toList
      = .ok ⟨[⟨.added, "1".toList⟩, ⟨.kept, " b\nc ".toList⟩, ⟨.added, "2".toList⟩], 2, 0, []⟩ := by
    decide
  have heq : whole = _ := Except.ok.inj (hwhole.symm.trans hevaluate)
  rw [heq]

end RuleSweep
