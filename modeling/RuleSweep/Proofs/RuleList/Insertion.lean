/-
# Putting a row into a rule list

A row that gives no matcher (`Rule.Idle`) can be put into a rule list at any place, and
nothing but numbers changes: the rules behind it stand one row further down
(`Rule.moved`), and if the row holds a rule that has nothing to search for, this rule is
skipped too.  `Rule.ofList_insertRow` says this of the rules, `RuleSet.ofList_insertRow` of
the rule set, and since a sweep does not look at numbers, `evaluate_insertRow` says it of
every evaluation.
-/
import RuleSweep.Proofs.RuleList
import RuleSweep.Proofs.Sweep.Junction
import RuleSweep.Proofs.Sweep.Renaming

namespace RuleSweep

/-! ## Rows -/

namespace Text

/-- A rule list with one more row, which stands behind the first `n` rows. -/
def insertRow (list : Text) (n : Nat) (row : Text) : Text :=
  joinWith ['\n'] (list.rows.take n ++ row :: list.rows.drop n)

/-- The rows of a rule list with one more row. -/
theorem rows_insertRow {row : Text} (hrow : '\n' ∉ row) (list : Text) (n : Nat) :
    (list.insertRow n row).rows = list.rows.take n ++ row :: list.rows.drop n := by
  refine cutEvery_joinWith (List.append_ne_nil_of_right_ne_nil _ (List.cons_ne_nil _ _)) ?_
  rw [List.forall_mem_append, List.forall_mem_cons]
  exact ⟨fun other hother => notMem_of_mem_cutEvery (List.mem_of_mem_take hother), hrow,
    fun other hother => notMem_of_mem_cutEvery (List.mem_of_mem_drop hother)⟩

end Text

/-! ## Rules -/

namespace Rule

/-- A row that holds a rule which has nothing to search for. -/
def Fails (row : Text) : Prop :=
  ∃ number rule, ofRow? number row = some rule ∧ Pattern.ofSearch? rule.body = none

/-- A row that gives no matcher. -/
inductive Idle (row : Text) : Prop
  /-- Nothing stands on it. -/
  | blank (h : row.trim = [])
  /-- It is a comment. -/
  | comment (h : separatorMark <+: row.trim)
  /-- Its search half is empty. -/
  | noSearch (h : (halves row.trim).1 = [])
  /-- Its search half is the mark for whole lines, with nothing to search for behind it. -/
  | noBody (line : lineMark <+: (halves row.trim).1)
      (h : Text.trim ((halves row.trim).1.drop lineMark.length) = [])
  /-- It holds a rule that has nothing to search for. -/
  | fails (h : Fails row)

/-- A rule one row further down, if it stands at a number or behind it. -/
def moved (number : Int) (rule : Rule) : Rule :=
  if rule.number < number then rule else { rule with number := rule.number + 1 }

section Moved

variable {number : Int} {rule : Rule}

/-- The rules in front of a number are not moved. -/
theorem moved_of_lt (h : rule.number < number) : rule.moved number = rule :=
  if_pos h

/-- The rules behind are moved by one row. -/
theorem moved_of_le (h : number ≤ rule.number) :
    rule.moved number = { rule with number := rule.number + 1 } :=
  if_neg (by omega)

/-- A rule that is moved is the same but for its number. -/
theorem exists_moved_eq (number : Int) (rule : Rule) :
    ∃ n, rule.moved number = { rule with number := n } := by
  by_cases h : rule.number < number
  · exact ⟨rule.number, moved_of_lt h⟩
  · exact ⟨rule.number + 1, moved_of_le (by omega)⟩

/-- A rule that is moved looks at the same. -/
theorem scope_moved (number : Int) (rule : Rule) : (rule.moved number).scope = rule.scope := by
  obtain ⟨n, hn⟩ := exists_moved_eq number rule
  rw [hn]

/-- A rule that is moved does the same. -/
theorem action_moved (number : Int) (rule : Rule) : (rule.moved number).action = rule.action := by
  obtain ⟨n, hn⟩ := exists_moved_eq number rule
  rw [hn]

/-- A rule that is moved searches for the same. -/
theorem body_moved (number : Int) (rule : Rule) : (rule.moved number).body = rule.body := by
  obtain ⟨n, hn⟩ := exists_moved_eq number rule
  rw [hn]
  rfl

end Moved

/-- If a row that gives no matcher holds a rule, the rule has nothing to search for. -/
theorem Idle.isVoid {row : Text} (h : Idle row) {number : Int} {rule : Rule}
    (hrule : ofRow? number row = some rule) : rule.isVoid = true := by
  obtain ⟨rfl, hblank, hcomment, hbody⟩ := of_ofRow?_eq_some hrule
  cases h with
  | blank h => exact absurd h hblank
  | comment h => exact absurd h hcomment
  | noSearch h =>
    rw [h] at hbody
    exact absurd rfl hbody
  | noBody line h =>
    have hscope : scopeOf (halves row.trim).1 = .line :=
      if_pos (List.isPrefixOf_iff_prefix.mpr line)
    rw [hscope] at hbody
    exact absurd h hbody
  | fails h =>
    obtain ⟨_, _, h, hnothing⟩ := h
    obtain ⟨rfl, -⟩ := of_ofRow?_eq_some h
    rw [Rule.isVoid, Option.isNone_iff_eq_none]
    exact hnothing

/-- The number of a row decides nothing but the number of its rule. -/
theorem ofRow?_eq_map (number n : Int) (row : Text) :
    ofRow? n row = (ofRow? number row).map fun rule => { rule with number := n } := by
  simp only [ofRow?]
  split
  · rfl
  · split
    · next hbody => rw [if_pos (by exact hbody)]; rfl
    · next hbody => rw [if_neg (by exact hbody)]; rfl

/-! ## Rules on rows -/

/-- The rules on some rows are those on the first rows and those on the others. -/
theorem ofRows_append (number : Int) (rows others : List Text) :
    ofRows number (rows ++ others)
      = ofRows number rows ++ ofRows (number + rows.length) others := by
  induction rows generalizing number with
  | nil => simp [ofRows]
  | cons row rows ih =>
    have hnumber : number + 1 + rows.length = number + (row :: rows).length := by
      rw [List.length_cons]
      omega
    rw [List.cons_append, ofRows, ofRows, ih, hnumber]
    split <;> rfl

/-- The rule on a row, and those on the rows behind it. -/
theorem ofRows_cons (number : Int) (row : Text) (rows : List Text) :
    ofRows number (row :: rows) = (ofRow? number row).toList ++ ofRows (number + 1) rows := by
  rw [ofRows]
  split <;> simp_all

/-- The rules on some rows have the numbers of the rows. -/
theorem number_of_mem_ofRows {number : Int} {rows : List Text} {rule : Rule}
    (h : rule ∈ ofRows number rows) :
    number ≤ rule.number ∧ rule.number < number + rows.length := by
  induction rows generalizing number with
  | nil => exact absurd h List.not_mem_nil
  | cons row rows ih =>
    rw [ofRows_cons, List.mem_append, Option.mem_toList] at h
    rw [List.length_cons]
    obtain h | h := h
    · have hnumber : rule.number = number := by rw [(of_ofRow?_eq_some h).1]
      omega
    · have hrest := ih h
      omega

/-- On rows that stand one row further down stand the rules one row further down. -/
theorem ofRows_add_one (number : Int) (rows : List Text) :
    ofRows (number + 1) rows = (ofRows number rows).map (moved number) := by
  suffices h : ∀ n, number ≤ n → ofRows (n + 1) rows = (ofRows n rows).map (moved number) from
    h number (le_refl number)
  induction rows with
  | nil => exact fun _ _ => rfl
  | cons row rows ih =>
    intro n hn
    rw [ofRows_cons, ofRows_cons, List.map_append, ih (n + 1) (by omega), ofRow?_eq_map n]
    cases hrow : ofRow? n row with
    | none => rfl
    | some rule =>
      have hnumber : rule.number = n := by rw [(of_ofRow?_eq_some hrow).1]
      simp [moved, hnumber, hn]

/-- **The rules of a rule list with one more row.**  In front of the row they stay where they
are, and behind it they are moved. -/
theorem ofList_insertRow {list row : Text} {n : Nat} (hn : n ≤ list.rows.length)
    (hrow : '\n' ∉ row) :
    ∃ front back, ofList list = front ++ back ∧
      (∀ rule ∈ front, rule.number < n + 1) ∧ (∀ rule ∈ back, n + 1 ≤ rule.number) ∧
      ofList (list.insertRow n row)
        = front.map (moved (n + 1)) ++ (ofRow? (n + 1) row).toList ++ back.map (moved (n + 1)) := by
  have hlength : (list.rows.take n).length = n := List.length_take_of_le hn
  have hfirst : (1 : Int) + (list.rows.take n).length = n + 1 := by omega
  have hfront : ∀ rule ∈ ofRows 1 (list.rows.take n), rule.number < n + 1 := by
    intro rule hrule
    have hlt := (number_of_mem_ofRows hrule).2
    omega
  have hstays : (ofRows 1 (list.rows.take n)).map (moved (n + 1))
      = ofRows 1 (list.rows.take n) := by
    rw [List.map_congr_left fun rule hrule => moved_of_lt (hfront rule hrule), List.map_id']
  refine ⟨ofRows 1 (list.rows.take n), ofRows (n + 1) (list.rows.drop n), ?_, hfront,
    fun rule hrule => (number_of_mem_ofRows hrule).1, ?_⟩
  · rw [← hfirst, ← ofRows_append, List.take_append_drop, ofList]
  · rw [ofList, Text.rows_insertRow hrow, ofRows_append, hfirst, ofRows_cons, ofRows_add_one,
      hstays, List.append_assoc]

end Rule

/-! ## Rule sets -/

namespace Matcher

/-- The same matcher with its rule moved. -/
def moved (number : Int) (matcher : Matcher) : Matcher :=
  { matcher with rule := matcher.rule.moved number }

/-- A matcher whose rule is moved works as before. -/
theorem worksLike_moved (number : Int) (matcher : Matcher) :
    (matcher.moved number).WorksLike matcher where
  pattern := rfl
  template := rfl
  scope := Rule.scope_moved number matcher.rule
  action := Rule.action_moved number matcher.rule

/-- A rule that is moved has the same matcher as before, or fails for the same reason. -/
theorem ofRule_moved (number : Int) (rule : Rule) :
    ofRule (rule.moved number) = (ofRule rule).map (moved number) := by
  have htemplate : templateOf (rule.moved number) = templateOf rule := by
    funext order
    rw [templateOf, templateOf, Rule.action_moved, Rule.scope_moved]
  rw [ofRule, ofRule, Rule.body_moved, htemplate]
  cases Pattern.ofSearch? rule.body with
  | none => rfl
  | some pattern =>
    simp only
    cases templateOf rule pattern.wildcards <;> rfl

/-- The matchers of rules that are moved are the matchers of the rules, moved. -/
theorem filterMap_ofRule?_moved (number : Int) (rules : List Rule) :
    (rules.map (Rule.moved number)).filterMap ofRule?
      = (rules.filterMap ofRule?).map (moved number) := by
  rw [List.filterMap_map, List.map_filterMap]
  congr 1
  funext rule
  rw [Function.comp, ofRule?, ofRule?, ofRule_moved]
  cases ofRule rule <;> rfl

end Matcher

namespace Rule

/-- A rule that is moved spoils a rule set as before, if it does. -/
theorem fault?_moved (number : Int) (rule : Rule) : (rule.moved number).fault? = rule.fault? := by
  rw [fault?, fault?, Matcher.ofRule_moved]
  rcases Matcher.ofRule rule with (_ | _) | _ <;> rfl

/-- A rule that is moved has as much to search for as before. -/
theorem isVoid_moved (number : Int) (rule : Rule) : (rule.moved number).isVoid = rule.isVoid := by
  rw [isVoid, isVoid, body_moved]

/-- Rules that are moved are spoilt by the same numeral. -/
theorem findSome?_fault?_moved (number : Int) (rules : List Rule) :
    (rules.map (moved number)).findSome? fault? = rules.findSome? fault? := by
  rw [List.findSome?_map]
  congr 1
  funext rule
  exact fault?_moved number rule

/-- Of rules that are moved the same ones have nothing to search for. -/
theorem filter_isVoid_moved (number : Int) (rules : List Rule) :
    (rules.map (moved number)).filter isVoid = (rules.filter isVoid).map (moved number) := by
  rw [List.filter_map]
  congr 2
  funext rule
  exact isVoid_moved number rule

/-- A rule that has nothing to search for spoils nothing. -/
theorem fault?_of_isVoid {rule : Rule} (h : rule.isVoid = true) : rule.fault? = none := by
  rw [isVoid, Option.isNone_iff_eq_none] at h
  rw [fault?, Matcher.ofRule, h]

end Rule

namespace Matcher

/-- A rule that has nothing to search for has no matcher. -/
theorem ofRule?_of_isVoid {rule : Rule} (h : rule.isVoid = true) : ofRule? rule = none := by
  rw [Rule.isVoid, Option.isNone_iff_eq_none] at h
  rw [ofRule?, ofRule, h]
  rfl

end Matcher

namespace RuleSet

variable {list row : Text} {n : Nat}

/-- **The rule set of a rule list with one more row.**  It cannot be made for the same reason
as before, or it has the same matchers, and the rules that are skipped are those from before
and the one on the row, if there is one. -/
theorem ofList_insertRow (hn : n ≤ list.rows.length) (hrow : '\n' ∉ row)
    (hidle : Rule.Idle row) :
    ∃ front back : List Rule,
      (∀ rule ∈ front, rule.number < n + 1) ∧ (∀ rule ∈ back, n + 1 ≤ rule.number) ∧
      ((∃ e, ofList list = .error e ∧ ofList (list.insertRow n row) = .error e) ∨
        ∃ matchers, ofList list = .ok ⟨matchers, front ++ back⟩ ∧
          ofList (list.insertRow n row)
            = .ok ⟨matchers.map (Matcher.moved (n + 1)),
                front.map (Rule.moved (n + 1)) ++ (Rule.ofRow? (n + 1) row).toList
                  ++ back.map (Rule.moved (n + 1))⟩) := by
  obtain ⟨front, back, hlist, hfront, hback, hinsert⟩ := Rule.ofList_insertRow hn hrow
  have hvoid : ∀ rule ∈ (Rule.ofRow? (n + 1) row).toList, rule.isVoid = true := by
    intro rule hrule
    exact hidle.isVoid (Option.mem_toList.mp hrule)
  have hfaults : (Rule.ofRow? (n + 1) row).toList.findSome? Rule.fault? = none :=
    List.findSome?_eq_none_iff.mpr fun rule hrule => Rule.fault?_of_isVoid (hvoid rule hrule)
  have hmatchers : (Rule.ofRow? (n + 1) row).toList.filterMap Matcher.ofRule? = [] :=
    List.filterMap_eq_nil_iff.mpr fun rule hrule => Matcher.ofRule?_of_isVoid (hvoid rule hrule)
  have hskipped : (Rule.ofRow? (n + 1) row).toList.filter Rule.isVoid
      = (Rule.ofRow? (n + 1) row).toList := List.filter_eq_self.mpr hvoid
  refine ⟨front.filter Rule.isVoid, back.filter Rule.isVoid,
    fun rule hrule => hfront rule (List.mem_of_mem_filter hrule),
    fun rule hrule => hback rule (List.mem_of_mem_filter hrule), ?_⟩
  rw [ofList, ofList, hlist, hinsert, ofRules_eq, ofRules_eq]
  simp only [List.findSome?_append, hfaults, Rule.findSome?_fault?_moved, Option.or_none]
  cases (front.findSome? Rule.fault?).or (back.findSome? Rule.fault?) with
  | some e => exact Or.inl ⟨e, rfl, rfl⟩
  | none =>
    refine Or.inr ⟨_, by rw [← List.filter_append], ?_⟩
    simp only [List.filterMap_append, List.filter_append, List.map_append, hmatchers, hskipped,
      Matcher.filterMap_ofRule?_moved, Rule.filter_isVoid_moved, List.append_nil]

end RuleSet

/-! ## Evaluations -/

/-- **A row that gives no matcher changes nothing but numbers.**  With and without it a rule
list is refused for the same reason.  Otherwise the matchers are the same but for the numbers
of the rows behind it; what is skipped is the same, up to these numbers, except that a rule on
the row which has nothing to search for is skipped in its place; and every source is evaluated
to the same segments and counts. -/
theorem evaluate_insertRow {list row : Text} {n : Nat} (hn : n ≤ list.rows.length)
    (hrow : '\n' ∉ row) (hidle : Rule.Idle row) :
    (∀ e, RuleSet.ofList (list.insertRow n row) = .error e ↔ RuleSet.ofList list = .error e) ∧
    ∀ set, RuleSet.ofList list = .ok set →
      ∃ set', RuleSet.ofList (list.insertRow n row) = .ok set' ∧
        set'.matchers = set.matchers.map (Matcher.moved (n + 1)) ∧
        (∃ front back extra : List Rule, set.skipped = front ++ back ∧
          (∀ rule ∈ front, rule.number < n + 1) ∧ (∀ rule ∈ back, n + 1 ≤ rule.number) ∧
          set'.skipped
            = front.map (Rule.moved (n + 1)) ++ extra ++ back.map (Rule.moved (n + 1)) ∧
          (¬ Rule.Fails row → extra = []) ∧
          (Rule.Fails row →
            ∃ rule, extra = [rule] ∧ rule.number = n + 1 ∧ rule.row = row.trim)) ∧
        ∀ source, ∃ result result', evaluate source list = .ok result ∧
          evaluate source (list.insertRow n row) = .ok result' ∧
          result'.segments = result.segments ∧ result'.matchCount = result.matchCount ∧
          result'.replaceCount = result.replaceCount ∧
          (source ≠ [] → result.skipped = set.skipped ∧ result'.skipped = set'.skipped) := by
  obtain ⟨front, back, hfront, hback, ⟨e, hlist, hinsert⟩ | ⟨matchers, hlist, hinsert⟩⟩ :=
    RuleSet.ofList_insertRow hn hrow hidle
  · rw [hlist, hinsert]
    exact ⟨fun _ => Iff.rfl, fun set hset => absurd hset (by simp)⟩
  refine ⟨fun e => by rw [hlist, hinsert]; simp, fun set hset => ?_⟩
  obtain rfl := Except.ok.inj (hlist.symm.trans hset)
  refine ⟨_, hinsert, rfl, ⟨front, back, _, rfl, hfront, hback, rfl, ?_, ?_⟩, fun source => ?_⟩
  · intro hstands
    rw [Option.toList_eq_nil_iff, Option.eq_none_iff_forall_not_mem]
    intro rule hrule
    refine hstands ⟨n + 1, rule, hrule, ?_⟩
    rw [← Option.isNone_iff_eq_none]
    exact hidle.isVoid hrule
  · rintro ⟨number, rule, hrule, -⟩
    rw [Rule.ofRow?_eq_map number, hrule]
    exact ⟨_, rfl, rfl, by rw [(Rule.of_ofRow?_eq_some hrule).1]⟩
  · have hsweep := sweep_map (Matcher.worksLike_moved (n + 1)) (RuleSet.solid_of_ofList hlist)
      (RuleSet.withinLine_of_ofList hlist) source
    obtain ⟨result, hresult, hsegments, hmatches, hreplaces⟩ := evaluate_of_ofList hlist source
    obtain ⟨result', hresult', hsegments', hmatches', hreplaces'⟩ :=
      evaluate_of_ofList hinsert source
    refine ⟨result, result', hresult, hresult', ?_, ?_, ?_, fun hsource => ⟨?_, ?_⟩⟩
    · rw [hsegments, hsegments', hsweep]
    · rw [hmatches, hmatches', hsweep]
    · rw [hreplaces, hreplaces', hsweep]
    · exact skipped_of_evaluate hlist hsource hresult
    · exact skipped_of_evaluate hinsert hsource hresult'

/-- A row with a rule that has nothing to search for, put between such a row and a rule that
marks. -/
theorem evaluate_insertRow_between :
    Rule.Idle " [or]///x ".toList ∧
    Text.insertRow "[or]\nb".toList 1 " [or]///x ".toList = "[or]\n [or]///x \nb".toList ∧
    ∃ set set' result result',
      RuleSet.ofList "[or]\nb".toList = .ok set ∧
      RuleSet.ofList "[or]\n [or]///x \nb".toList = .ok set' ∧
      set'.matchers = set.matchers.map (Matcher.moved 2) ∧
      set.skipped.map Rule.number = [1] ∧ set'.skipped.map Rule.number = [1, 2] ∧
      evaluate "abc".toList "[or]\nb".toList = .ok result ∧
      evaluate "abc".toList "[or]\n [or]///x \nb".toList = .ok result' ∧
      result'.segments = result.segments := by
  have hidle : Rule.Idle " [or]///x ".toList :=
    .fails ⟨1, ⟨"[or]".toList, .text, .replace "x".toList false, 1, "[or]///x".toList⟩,
      by decide, by decide⟩
  have hinsert : Text.insertRow "[or]\nb".toList 1 " [or]///x ".toList
      = "[or]\n [or]///x \nb".toList := by decide
  have hset : RuleSet.ofList "[or]\nb".toList
      = .ok ⟨[⟨⟨"b".toList, .text, .mark, 2, "b".toList⟩, ⟨[[.char 'b']]⟩, []⟩],
          [⟨"[or]".toList, .text, .mark, 1, "[or]".toList⟩]⟩ := by decide
  have hplace : 1 ≤ (Text.rows "[or]\nb".toList).length := by decide
  obtain ⟨-, hsame⟩ := evaluate_insertRow hplace (by decide) hidle
  obtain ⟨set', hset', hmatchers, -, hevaluate⟩ := hsame _ hset
  obtain ⟨result, result', hresult, hresult', hsegments, -⟩ := hevaluate "abc".toList
  rw [hinsert] at hset' hresult'
  have hskipped : (RuleSet.ofList "[or]\n [or]///x \nb".toList).map
      (fun set => set.skipped.map Rule.number) = .ok [1, 2] := by decide
  rw [hset', Except.map, Except.ok.injEq] at hskipped
  exact ⟨hidle, hinsert, _, set', result, result', hset, hset', hmatchers, by decide, hskipped,
    hresult, hresult', hsegments⟩

end RuleSweep
