/-
# Segment lines can be read back

The segments of a result are printed on lines of their own, whatever their texts hold: a newline
in a text is written with a backslash.  Each line is a JSON object with the kind and the text of
its segment, and nothing else.
-/
import RuleSweep.Evaluation
import RuleSweep.Proofs.Json.Characters
import RuleSweep.Proofs.Settings.Fields

namespace RuleSweep

/-- The kind of the name of a kind. -/
theorem SegmentKind.ofName?_name (kind : SegmentKind) : SegmentKind.ofName? kind.name = some kind := by
  cases kind with
  | kept => rfl
  | added => rfl
  | replaced => rfl

namespace SegmentLines

/-! ## Reading -/

/-- The fields of a segment. -/
def fields (segment : Segment) : Json.Fields :=
  [("kind".toList, .ofText segment.kind.name), ("text".toList, .ofText segment.text)]

/-- The text that an object has under a name. -/
def textAt? (name : Text) (fields : List (List Nat × Json.Value)) : Option Text :=
  match Json.Value.lastField? name fields with
  | some (.string codePoints) => (Settings.textOf codePoints).toOption
  | _ => none

/-- The segment that an object stands for. -/
def ofFields? (fields : List (List Nat × Json.Value)) : Option Segment := do
  let kind ← SegmentKind.ofName? (← textAt? "kind".toList fields)
  let text ← textAt? "text".toList fields
  return ⟨kind, text⟩

/-- The segment that a line stands for. -/
def read? (line : Text) : Option Segment :=
  match Json.parse line with
  | .ok (.object fields) => ofFields? fields
  | _ => none

/-! ## One line -/

/-- The fields of a segment on a line, up to the brace behind them. -/
def inside (segment : Segment) : Text :=
  Json.fieldText .unicode "kind".toList (Json.quoted .unicode segment.kind.name) ++
    ',' :: ' ' ::
      (Json.fieldText .unicode "text".toList (Json.quoted .unicode segment.text) ++ ['\x7d'])

/-- A line is made of the fields of its segment. -/
theorem line_eq (segment : Segment) : line segment = '\x7b' :: inside segment := by
  have hopening : "\x7b\"kind\": ".toList
      = '\x7b' :: (Json.quoted .unicode "kind".toList ++ ": ".toList) := by decide +kernel
  have hbetween : ", \"text\": ".toList
      = ',' :: ' ' :: (Json.quoted .unicode "text".toList ++ ": ".toList) := by decide +kernel
  unfold line
  rw [hopening, hbetween, show "\x7d".toList = ['\x7d'] from rfl]
  simp only [inside, Json.fieldText, List.append_assoc, List.cons_append]

/-- A line holds no newline, whatever the text of its segment holds. -/
theorem newline_notMem_line (segment : Segment) : '\n' ∉ line segment := by
  unfold line
  simp only [List.mem_append, not_or]
  exact ⟨⟨⟨⟨by decide, Json.newline_notMem_quoted .unicode segment.kind.name⟩, by decide⟩,
    Json.newline_notMem_quoted .unicode segment.text⟩, by decide⟩

/-- The fields of a line begin with the quote of the first name. -/
theorem exists_inside_eq (segment : Segment) : ∃ tail, inside segment = '"' :: tail :=
  ⟨_, Json.fieldText_append _ _ _ _⟩

/-- The fields of a line are read back, and nothing is left. -/
theorem readFields_inside (segment : Segment) (limit room : Nat) :
    Json.readFields (limit + 3) room (inside segment) = .ok ((fields segment).read, []) := by
  have hkind := Json.writes_quoted .unicode segment.kind.name
  have htext := Json.writes_quoted .unicode segment.text
  have hblank : ∀ t, Json.skipBlanks
        (' ' :: (Json.fieldText .unicode "text".toList (Json.quoted .unicode segment.text) ++ t))
      = Json.fieldText .unicode "text".toList (Json.quoted .unicode segment.text) ++ t := by
    intro t
    rw [Json.fieldText_append]
    rfl
  have hlast : Json.readFields (limit + 2) room
        (Json.fieldText .unicode "text".toList (Json.quoted .unicode segment.text) ++ ['\x7d'])
      = .ok ([("text".toList.map Char.toNat, .ofText segment.text)], []) :=
    Json.readFields_last htext (List.forall_mem_nil _) limit
  rw [inside, Json.readFields_next hkind, hblank, hlast]
  rfl

/-- **A line is read back** as an object with the kind and the text of its segment. -/
theorem parse_line (segment : Segment) :
    Json.parse (line segment) = .ok (.object (fields segment).read) := by
  obtain ⟨tail, htail⟩ := exists_inside_eq segment
  have hquote : Json.skipBlanks ('"' :: tail) = '"' :: tail := rfl
  have hfields := readFields_inside segment (2 * (inside segment).length) 989
  rw [line_eq]
  rw [htail] at hfields ⊢
  exact Json.parse_opening hquote hfields

/-- A name whose last field is a text has that text. -/
theorem textAt?_of_isLast {name t : Text} {fields : List (List Nat × Json.Value)}
    (h : Settings.IsLast name fields (.ofText t)) : textAt? name fields = some t := by
  rw [textAt?, Settings.lastField?_eq_some_iff.mpr h]
  show (Settings.textOf (t.map Char.toNat)).toOption = some t
  rw [Settings.textOf_map]
  rfl

/-- The fields of a segment stand for it. -/
theorem ofFields?_fields (segment : Segment) : ofFields? (fields segment).read = some segment := by
  have hkind : textAt? "kind".toList (fields segment).read = some segment.kind.name := by
    refine textAt?_of_isLast ⟨[], [("text".toList.map Char.toNat, .ofText segment.text)], rfl, ?_⟩
    rw [List.forall_mem_singleton]
    exact (by decide : "text".toList.map Char.toNat ≠ "kind".toList.map Char.toNat)
  have htext : textAt? "text".toList (fields segment).read = some segment.text :=
    textAt?_of_isLast ⟨[("kind".toList.map Char.toNat, .ofText segment.kind.name)], [], rfl,
      List.forall_mem_nil _⟩
  rw [ofFields?, hkind, htext]
  simp only [SegmentKind.ofName?_name, Option.bind_eq_bind, Option.bind_some, Option.pure_def]

/-- A line stands for its segment. -/
theorem read?_line (segment : Segment) : read? (line segment) = some segment := by
  rw [read?, parse_line]
  exact ofFields?_fields segment

/-! ## All lines -/

/-- **The segments of a result can be read from their lines**, whatever their texts hold.  Cut at
newlines, the output has one line for each segment, in the same order; each line is a JSON object
with the kind and the text of its segment and nothing else; and the segments can be read from
the lines. -/
theorem rows_render (result : Result) (hne : result.segments ≠ []) :
    let rows := Text.rows (OutputFormat.segments.render result.segments)
    rows.length = result.segments.length ∧
    rows.map Json.parse
      = result.segments.map (fun segment => .ok (.object (fields segment).read)) ∧
    rows.map read? = result.segments.map some := by
  intro rows
  have hlines : result.segments.map line ≠ [] := by
    rwa [Ne, List.map_eq_nil_iff]
  have hrows : rows = result.segments.map line := by
    refine Text.cutEvery_joinWith hlines ?_
    rw [List.forall_mem_map]
    exact fun segment _ => newline_notMem_line segment
  refine ⟨?_, ?_, ?_⟩
  · rw [hrows, List.length_map]
  · rw [hrows, List.map_map]
    refine List.map_congr_left fun segment _ => ?_
    rw [Function.comp_apply, parse_line]
  · rw [hrows, List.map_map]
    refine List.map_congr_left fun segment _ => ?_
    rw [Function.comp_apply, read?_line]

/-- Newlines, quotes, backslashes, controls and a character above the first plane are read back,
and so is an empty text. -/
theorem rows_render_controls :
    let result : Result :=
      ⟨[⟨.kept, "a\nb\"\\\x00\x7f".toList⟩, ⟨.added, "é😀\r".toList⟩, ⟨.replaced, []⟩], 1, 1, []⟩
    let output := OutputFormat.segments.render result.segments
    output = "\x7b\"kind\": \"original\", \"text\": \"a\\nb\\\"\\\\\\u0000\x7f\"\x7d\n".toList
        ++ "\x7b\"kind\": \"added\", \"text\": \"é😀\\r\"\x7d\n".toList
        ++ "\x7b\"kind\": \"replaced\", \"text\": \"\"\x7d".toList ∧
    (Text.rows output).map read? = result.segments.map some := by
  intro result output
  obtain ⟨-, -, hread⟩ := rows_render result (List.cons_ne_nil _ _)
  exact ⟨by decide +kernel, hread⟩

end SegmentLines

end RuleSweep
