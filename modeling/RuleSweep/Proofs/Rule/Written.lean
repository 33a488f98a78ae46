/-
# Writing rules as rows

A rule can be written as a row again: its search half, and if it replaces, its replacement half
behind the mark, which is `[del]` if it deletes (`Rule.written`).  The halves of a row hold no
mark in front of the first one and no blanks at their ends, so the row that is written has the
same halves, and it is read as the same rule: `Rule.ofRow?_written`.
-/
import RuleSweep.Proofs.Rule.Row

namespace RuleSweep

namespace Rule

/-- A rule as a row. -/
def written (rule : Rule) : Text :=
  match rule.action with
  | .mark => rule.search
  | .replace _ true => rowOf rule.search deleteMark
  | .replace replacement false => rowOf rule.search replacement

/-! ## The halves of a row -/

/-- The search half of a row that has something in front of its mark is a half. -/
theorem isHalf_of_halves {row : Text} (htrim : row.trim = row)
    (hne : (halves row).1 ≠ []) : (halves row).1.IsHalf := by
  rw [halves] at hne ⊢
  cases hcut : Text.cutAt? separatorMark row with
  | none =>
    rw [hcut] at hne
    exact ⟨hne, htrim, Text.cutAt?_eq_none_iff.mp hcut⟩
  | some parts =>
    obtain ⟨before, after⟩ := parts
    rw [hcut] at hne
    refine ⟨hne, Text.trim_trim before, fun hmark => ?_⟩
    exact Text.not_isInfix_of_cutAt? (by decide) hcut (hmark.trans (Text.trim_isInfix before))

/-- A rule on a row marks, or its action is the one that a half without blanks asks for. -/
theorem action_of_halves (row : Text) :
    (halves row).2 = .mark ∨
      ∃ replacement : Text, replacement.trim = replacement ∧
        (halves row).2 = actionOf replacement := by
  rw [halves]
  cases hcut : Text.cutAt? separatorMark row with
  | none => exact Or.inl rfl
  | some parts => exact Or.inr ⟨parts.2.trim, Text.trim_trim parts.2, rfl⟩

/-- A rule without a search half has nothing to search for. -/
theorem body_of_search_eq_nil {rule : Rule} (h : rule.search = []) : rule.body = [] := by
  rw [body, h]
  cases rule.scope <;> rfl

/-! ## Writing and reading -/

/-- A rule that replaces is written with the half that asks for its action. -/
theorem written_of_action {rule : Rule} {replacement : Text}
    (h : rule.action = actionOf replacement) :
    rule.written = rowOf rule.search replacement := by
  rw [written, h, actionOf]
  by_cases hdelete : replacement = deleteMark
  · rw [if_pos hdelete, hdelete]
  · rw [if_neg hdelete]

section Written

variable {number : Int} {row : Text} {rule : Rule} (h : ofRow? number row = some rule)
include h

/-- The search half of the rule on a row is a half. -/
theorem isHalf_of_ofRow? : rule.search.IsHalf := by
  obtain ⟨rfl, -, -, hbody⟩ := of_ofRow?_eq_some h
  exact isHalf_of_halves (Text.trim_trim row) fun hsearch => hbody (body_of_search_eq_nil hsearch)

/-- The row that a rule is written as holds the rule, but for the row itself. -/
theorem ofRow?_written_eq :
    ofRow? number rule.written = some { rule with row := rule.written.trim } := by
  have hhalf := isHalf_of_ofRow? h
  obtain ⟨hrule, -, -, hbody⟩ := of_ofRow?_eq_some h
  have hscope : rule.scope = scopeOf rule.search := by rw [hrule]
  have hnumber : rule.number = number := by rw [hrule]
  have haction : rule.action = (halves row.trim).2 := by rw [hrule]
  have hmarking : (marking number rule.search).body = rule.body := by
    rw [body, body, hscope]
    rfl
  have hsearch : (marking number rule.search).body ≠ [] := by rwa [hmarking]
  rcases action_of_halves row.trim with hmark | ⟨replacement, htrim, hreplace⟩
  · rw [hmark] at haction
    have hwritten : rule.written = rule.search := by rw [written, haction]
    rw [hwritten, ofRow?_of_isHalf hhalf hsearch, hhalf.trim, marking, hscope, haction, hnumber]
  · rw [hreplace] at haction
    rw [written_of_action haction, ofRow?_rowOf hhalf htrim hsearch, hscope, haction, hnumber]

/-- **A rule is read again from the row that it is written as, and from its own row.**  The row
that it is written as gives a rule with the same halves that does the same with what it finds;
its own row, without the blanks around it, gives the rule itself. -/
theorem ofRow?_written :
    (∃ read, ofRow? number rule.written = some read ∧
      read.search = rule.search ∧ read.replacement = rule.replacement ∧
      read.replaces = rule.replaces ∧ read.scope = rule.scope ∧ read.deletes = rule.deletes ∧
      read.number = rule.number ∧ read.body = rule.body) ∧
    ofRow? number rule.row = some rule := by
  refine ⟨⟨_, ofRow?_written_eq h, rfl, rfl, rfl, rfl, rfl, rfl, rfl⟩, ?_⟩
  obtain ⟨rfl, hne, hcomment, hbody⟩ := of_ofRow?_eq_some h
  rw [ofRow?_eq_some_iff, Text.trim_trim]
  exact ⟨rfl, hne, hcomment, hbody⟩

end Written

/-- A search half that ends with slashes, and a replacement half that begins with one and holds
the mark and `[del]`: written as a row, they are kept apart by blanks. -/
theorem ofRow?_written_slashes :
    ∃ rule, ofRow? 7 "\u3000[line]a// ////b///[del] ".toList = some rule ∧
      rule.written = "[line]a// /// /b///[del]".toList ∧
      (∃ read, ofRow? 7 rule.written = some read ∧
        read.search = rule.search ∧ read.replacement = rule.replacement ∧
        read.replaces = rule.replaces ∧ read.scope = rule.scope ∧ read.deletes = rule.deletes ∧
        read.number = rule.number ∧ read.body = rule.body) ∧
      ofRow? 7 rule.row = some rule := by
  have h : ofRow? 7 "\u3000[line]a// ////b///[del] ".toList
      = some ⟨"[line]a//".toList, .line, .replace "/b///[del]".toList false, 7,
          "[line]a// ////b///[del]".toList⟩ := by decide
  exact ⟨_, h, by decide, ofRow?_written h⟩

end Rule

end RuleSweep
