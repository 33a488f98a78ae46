/-
# HTML can be read back

The segments of a result can be told from their HTML, whatever their texts hold: tags, class names
and references in a text are escaped, so that the only angle brackets are those of the tags
themselves (`InTag`).  Therefore a segment reaches from its opening tag to the next closing tag,
and `decode?` reads the segments one after the other.
-/
import Mathlib.Logic.Function.Basic
import RuleSweep.Output
import RuleSweep.Proofs.Text.Cut

namespace RuleSweep

namespace Html

/-! ## Reading -/

/-- The text that is written between tags: a reference stands for its character, and everything
else for itself. -/
def unescape : Text → Text
  | '&' :: 'a' :: 'm' :: 'p' :: ';' :: rest => '&' :: unescape rest
  | '&' :: 'l' :: 't' :: ';' :: rest => '<' :: unescape rest
  | '&' :: 'g' :: 't' :: ';' :: rest => '>' :: unescape rest
  | '&' :: 'q' :: 'u' :: 'o' :: 't' :: ';' :: rest => '"' :: unescape rest
  | '&' :: '#' :: 'x' :: '2' :: '7' :: ';' :: rest => '\x27' :: unescape rest
  | c :: rest => c :: unescape rest
  | [] => []

/-- The kind whose opening tag a text begins with, and what follows the tag. -/
def readTag? (t : Text) : Option (SegmentKind × Text) :=
  ([SegmentKind.kept, .added, .replaced].find? fun kind => (openTag kind).isPrefixOf t).map
    fun kind => (kind, t.drop (openTag kind).length)

/-- The segment that a text begins with, and what follows it. -/
def readSegment? (t : Text) : Option (Segment × Text) :=
  match readTag? t with
  | none => none
  | some (kind, rest) =>
    (Text.cutAt? closeTag rest).map fun (content, rest) => (⟨kind, unescape content⟩, rest)

/-- What follows a segment is shorter than the text that begins with the segment. -/
theorem length_lt_of_readSegment? {t rest : Text} {segment : Segment}
    (h : readSegment? t = some (segment, rest)) : rest.length < t.length := by
  unfold readSegment? at h
  split at h
  · exact absurd h (by simp)
  · next kind behind htag =>
    rw [readTag?, Option.map_eq_some_iff] at htag
    obtain ⟨_, -, htag⟩ := htag
    rw [Option.map_eq_some_iff] at h
    obtain ⟨⟨content, after⟩, hcut, heq⟩ := h
    have hlength := congrArg List.length (Text.append_of_cutAt? hcut)
    have htail := congrArg List.length (Prod.mk.inj htag).2
    have hmark : closeTag.length = 7 := rfl
    rw [← (Prod.mk.inj heq).2]
    simp only [List.length_append, List.length_drop] at hlength htail ⊢
    omega

/-- The segments that HTML stands for. -/
def decode? (t : Text) : Option (List Segment) :=
  if t = [] then some []
  else
    match _h : readSegment? t with
    | none => none
    | some (segment, rest) => (decode? rest).map (segment :: ·)
termination_by t.length
decreasing_by exact length_lt_of_readSegment? _h

/-! ## Between tags -/

/-- A character that begins no reference stands for itself. -/
theorem unescape_cons {c : Char} (h : c ≠ '&') (rest : Text) :
    unescape (c :: rest) = c :: unescape rest := by
  conv_lhs => unfold unescape
  split <;> simp_all

/-- What is written for a character is read back. -/
theorem unescape_escapeChar (c : Char) (rest : Text) :
    unescape (escapeChar c ++ rest) = c :: unescape rest := by
  unfold escapeChar
  split
  · next h => rw [h]; rfl
  next hamp =>
  split
  · next h => rw [h]; rfl
  split
  · next h => rw [h]; rfl
  split
  · next h => rw [h]; rfl
  split
  · next h => rw [h]; rfl
  · exact unescape_cons hamp rest

/-- **What is written between tags is read back.** -/
theorem unescape_escape (t : Text) : unescape (escape t) = t := by
  induction t with
  | nil => rfl
  | cons c t ih =>
    rw [escape] at ih
    rw [escape, List.flatMap_cons, unescape_escapeChar, ih]

/-- No character is written with an angle bracket. -/
theorem angle_notMem_escapeChar (c : Char) : '<' ∉ escapeChar c ∧ '>' ∉ escapeChar c := by
  unfold escapeChar
  split
  · decide
  split
  · decide
  next hopen =>
  split
  · decide
  next hclose =>
  split
  · decide
  split
  · decide
  · rw [List.mem_singleton, List.mem_singleton]
    exact ⟨Ne.symm hopen, Ne.symm hclose⟩

/-- Between tags there are no angle brackets. -/
theorem angle_notMem_escape {c : Char} (hc : c = '<' ∨ c = '>') (t : Text) : c ∉ escape t := by
  intro h
  obtain ⟨d, -, hd⟩ := List.mem_flatMap.mp h
  rcases hc with rfl | rfl
  · exact (angle_notMem_escapeChar d).1 hd
  · exact (angle_notMem_escapeChar d).2 hd

/-! ## Segments -/

/-- The opening tag of a kind is told from the others. -/
theorem readTag?_openTag (kind : SegmentKind) (rest : Text) :
    readTag? (openTag kind ++ rest) = some (kind, rest) := by
  cases kind with
  | kept => rfl
  | added => rfl
  | replaced => rfl

/-- A segment is read back, and what follows it is left. -/
theorem readSegment?_element (segment : Segment) (rest : Text) :
    readSegment? (element segment ++ rest) = some (segment, rest) := by
  have hcut : Text.cutAt? closeTag (escape segment.text ++ (closeTag ++ rest))
      = some (escape segment.text, rest) := by
    rw [show closeTag = '<' :: "/span>".toList from rfl]
    exact Text.cutAt?_append_of_notMem (angle_notMem_escape (.inl rfl) segment.text) rest
  rw [element, List.append_assoc, List.append_assoc, readSegment?, readTag?_openTag]
  simp only [hcut, Option.map_some, unescape_escape]

/-- Segments are read back one after the other. -/
theorem decode?_element_append (segment : Segment) (rest : Text) :
    decode? (element segment ++ rest) = (decode? rest).map (segment :: ·) := by
  have hclose : closeTag ≠ [] := by decide
  have hne : element segment ++ rest ≠ [] := by
    unfold element
    exact List.append_ne_nil_of_left_ne_nil (List.append_ne_nil_of_right_ne_nil _ hclose) rest
  rw [decode?, if_neg hne]
  split
  · next hnone =>
    rw [readSegment?_element] at hnone
    exact absurd hnone (by simp)
  · next first behind hsome =>
    rw [readSegment?_element, Option.some.injEq, Prod.mk.injEq] at hsome
    rw [← hsome.1, ← hsome.2]

/-- All segments are read back. -/
theorem decode?_render (segments : List Segment) : decode? (render segments) = some segments := by
  induction segments with
  | nil => rw [render, List.flatMap_nil, decode?, if_pos rfl]
  | cons segment segments ih =>
    rw [render] at ih
    rw [render, List.flatMap_cons, decode?_element_append, ih]
    rfl

/-! ## Angle brackets -/

/-- The character between `front` and `back` in the HTML of segments belongs to a tag of one of
them. -/
inductive InTag : List Segment → (front : Text) → Char → (back : Text) → Prop
  /-- It belongs to the opening tag of the first segment. -/
  | opening {segment : Segment} {later : List Segment} {before after : Text} {c : Char}
      (tag : openTag segment.kind = before ++ c :: after) :
      InTag (segment :: later) before c
        (after ++ (escape segment.text ++ (closeTag ++ render later)))
  /-- It belongs to the closing tag of the first segment. -/
  | closing {segment : Segment} {later : List Segment} {before after : Text} {c : Char}
      (tag : closeTag = before ++ c :: after) :
      InTag (segment :: later) (openTag segment.kind ++ (escape segment.text ++ before)) c
        (after ++ render later)
  /-- It belongs to a tag of a later segment. -/
  | later {segment : Segment} {later : List Segment} {front back : Text} {c : Char}
      (inTag : InTag later front c back) :
      InTag (segment :: later)
        (openTag segment.kind ++ (escape segment.text ++ (closeTag ++ front))) c back

/-- A character of two texts, one behind the other, stands in the first or in the second. -/
theorem append_eq_append_cons {a b front back : Text} {c : Char} (h : a ++ b = front ++ c :: back) :
    (∃ after, a = front ++ c :: after ∧ back = after ++ b) ∨
      ∃ before, front = a ++ before ∧ b = before ++ c :: back := by
  obtain ⟨before, hfront, hb⟩ | ⟨after, ha, hback⟩ := List.append_eq_append_iff.mp h
  · exact .inr ⟨before, hfront, hb⟩
  · cases after with
    | nil => exact .inr ⟨[], by simp [ha], by simpa using hback.symm⟩
    | cons d after =>
      rw [List.cons_append, List.cons.injEq] at hback
      rw [hback.1]
      exact .inl ⟨after, ha, hback.2⟩

/-- Every angle bracket belongs to a tag. -/
theorem inTag_of_render {segments : List Segment} {front back : Text} {c : Char}
    (h : render segments = front ++ c :: back) (hc : c = '<' ∨ c = '>') :
    InTag segments front c back := by
  induction segments generalizing front with
  | nil => exact absurd h (by simp [render])
  | cons segment later ih =>
    have helement : render (segment :: later)
        = openTag segment.kind ++ (escape segment.text ++ (closeTag ++ render later)) := by
      simp only [render, List.flatMap_cons, element, List.append_assoc]
    rw [helement] at h
    obtain ⟨after, htag, rfl⟩ | ⟨front, rfl, htext⟩ := append_eq_append_cons h
    · exact .opening htag
    obtain ⟨after, htext, -⟩ | ⟨front, rfl, hclosing⟩ := append_eq_append_cons htext
    · -- between the tags there is none
      have hmem : c ∈ escape segment.text := by
        rw [htext]
        exact List.mem_append_right front List.mem_cons_self
      exact absurd hmem (angle_notMem_escape hc segment.text)
    obtain ⟨after, htag, rfl⟩ | ⟨front, rfl, hlater⟩ := append_eq_append_cons hclosing
    · exact .closing htag
    · exact .later (ih hlater)

/-! ## The whole -/

/-- **Segments can be told from their HTML**, whatever their texts hold: decoding gives them back,
no two lists have the same HTML, and every angle bracket belongs to a tag of one of the
segments. -/
theorem render_decodable :
    (∀ segments, decode? (render segments) = some segments) ∧
    Function.Injective render ∧
    ∀ segments front c back, render segments = front ++ c :: back → c = '<' ∨ c = '>' →
      InTag segments front c back := by
  refine ⟨decode?_render, ?_, fun _ _ _ _ h hc => inTag_of_render h hc⟩
  intro segments others h
  have hdecoded := decode?_render segments
  rw [h, decode?_render, Option.some.injEq] at hdecoded
  exact hdecoded.symm

/-- A text that looks like the end of a segment and the beginning of another one, a reference, and
an empty text. -/
theorem render_decodable_tags :
    let segments : List Segment :=
      [⟨.kept, "</span><span class=\"diff-add\">&lt;".toList⟩, ⟨.added, []⟩,
        ⟨.replaced, "'".toList⟩]
    render segments
      = "<span class=\"diff-original\">".toList
          ++ "&lt;/span&gt;&lt;span class=&quot;diff-add&quot;&gt;&amp;lt;</span>".toList
          ++ "<span class=\"diff-add\"></span>".toList
          ++ "<span class=\"diff-replace\">&#x27;</span>".toList ∧
    decode? (render segments) = some segments ∧
    (∀ others, render others = render segments → others = segments) ∧
    InTag segments [] '<' (render segments).tail := by
  intro segments
  obtain ⟨hdecode, hinjective, hbrackets⟩ := render_decodable
  have hfront : render segments = [] ++ '<' :: (render segments).tail := by decide +kernel
  exact ⟨by decide +kernel, hdecode segments, fun others h => hinjective h,
    hbrackets segments [] '<' _ hfront (.inl rfl)⟩

end Html

end RuleSweep
