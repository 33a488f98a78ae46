/-
# The fields that count

Settings are given the fields of a document one after the other, each name once.  A field for all
fields of the settings takes the place of everything that was given before it; so what counts are
the fields of the document, or those that such a field holds with those behind it.  `IsOwn` says
so, and `exists_isOwn` shows that every name that is looked up has the value that it has there.
-/
import RuleSweep.Proofs.Settings.Fields

namespace RuleSweep

namespace Settings

open Json.Value (distinctFields lastField?)

variable {name : Text} {fields own next given : Fields} {field : List Nat × Json.Value}

/-! ## Every name once -/

/-- The last field of a name stands among those of different names. -/
theorem mem_distinctFields_of_find? {codePoints : List Nat}
    (h : (fields.reverse.find? fun other => other.1 = codePoints) = some field) :
    field ∈ distinctFields fields := by
  have hname := List.find?_some h
  have hmem : field ∈ fields := List.mem_reverse.mp (List.mem_of_find?_eq_some h)
  rw [decide_eq_true_eq] at hname
  rw [distinctFields, List.mem_filterMap]
  refine ⟨codePoints, ?_, h⟩
  rw [List.mem_eraseDups, ← hname]
  exact List.mem_map_of_mem hmem

/-- Those of different names are the last fields of their names. -/
theorem mem_distinctFields_iff :
    field ∈ distinctFields fields ↔
      (fields.reverse.find? fun other => other.1 = field.1) = some field := by
  refine ⟨?_, mem_distinctFields_of_find?⟩
  rw [distinctFields, List.mem_filterMap]
  rintro ⟨name, -, hfind⟩
  have hname := List.find?_some hfind
  rw [decide_eq_true_eq] at hname
  rw [hname]
  exact hfind

/-- A field among those of different names is one of all fields. -/
theorem mem_of_mem_distinctFields (h : field ∈ distinctFields fields) : field ∈ fields :=
  List.mem_reverse.mp (List.mem_of_find?_eq_some (mem_distinctFields_iff.mp h))

/-- No field has a name exactly if the name has no value. -/
theorem lastField?_eq_none_iff :
    lastField? name fields = none ↔ ∀ field ∈ fields, field.1 ≠ name.map Char.toNat := by
  rw [lastField?, Option.map_eq_none_iff, List.find?_eq_none]
  simp

/-- Of two runs of fields the later one is asked first. -/
theorem lastField?_append (name : Text) (fields more : Fields) :
    lastField? name (fields ++ more) = (lastField? name more).or (lastField? name fields) := by
  rw [lastField?, List.reverse_append, List.find?_append, Option.map_or]
  rfl

/-- A name has the same value when every name stands once. -/
theorem lastField?_distinctFields (name : Text) (fields : Fields) :
    lastField? name (distinctFields fields) = lastField? name fields := by
  cases hlast : lastField? name fields with
  | none =>
    rw [lastField?_eq_none_iff] at hlast ⊢
    exact fun field hfield => hlast field (mem_of_mem_distinctFields hfield)
  | some value =>
    -- every field of the name that is left has that value, and there is one
    have hvalue : ∀ field ∈ distinctFields fields, field.1 = name.map Char.toNat →
        field.2 = value := by
      intro field hfield hname
      rw [mem_distinctFields_iff, hname] at hfield
      rw [lastField?, hfield, Option.map_some, Option.some.injEq] at hlast
      exact hlast
    cases hagain : lastField? name (distinctFields fields) with
    | some other =>
      obtain ⟨earlier, later, hfields, -⟩ := lastField?_eq_some_iff.mp hagain
      have hmem : (name.map Char.toNat, other) ∈ distinctFields fields := by simp [hfields]
      exact congrArg some (hvalue _ hmem rfl)
    | none =>
      rw [lastField?, Option.map_eq_some_iff] at hlast
      obtain ⟨field, hfind, -⟩ := hlast
      have hname := List.find?_some hfind
      rw [decide_eq_true_eq] at hname
      have hmem := mem_distinctFields_of_find? hfind
      exact absurd hname (lastField?_eq_none_iff.mp hagain field hmem)

/-- Where no name is left there was none. -/
theorem eq_nil_of_distinctFields (h : distinctFields fields = []) : fields = [] := by
  cases fields with
  | nil => rfl
  | cons field more =>
    cases hfind : (field :: more).reverse.find? fun other => other.1 = field.1 with
    | none =>
      have hnot := List.find?_eq_none.mp hfind field (by simp)
      exact absurd (decide_eq_true rfl) hnot
    | some last =>
      have hmem := mem_distinctFields_of_find? hfind
      rw [h] at hmem
      exact absurd hmem List.not_mem_nil

/-! ## What the settings are given -/

/-- If two steps succeed, so does the first, and the second on what the first gave. -/
theorem exists_of_bind_eq_ok {α β : Type} {first : Except Fault α} {second : α → Except Fault β}
    {result : β} (h : first >>= second = .ok result) :
    ∃ middle, first = .ok middle ∧ second middle = .ok result := by
  cases first with
  | error e => exact absurd h (by simp [bind, Except.bind])
  | ok middle => exact ⟨middle, rfl, h⟩

/-- The fields that count when settings have been given the fields of a document. -/
inductive IsOwn (fields : Fields) : Fields → Prop
  /-- All of them, if none is for all fields of the settings. -/
  | all (hnone : ∀ field ∈ fields, field.1 ≠ Reserved.fields.name.map Char.toNat) :
    IsOwn fields fields
  /-- Those that such a field holds and those behind it. -/
  | replaced {before nested after : Fields}
    (hfields : distinctFields fields
      = before ++ (Reserved.fields.name.map Char.toNat, .object nested) :: after)
    (hafter : ∀ field ∈ after, field.1 ≠ Reserved.fields.name.map Char.toNat) :
    IsOwn fields (nested ++ after)

/-- A name is looked up among the fields of the settings. -/
def IsKnownName (name : Text) : Prop :=
  name ∈ names ∨ name = Reserved.layout.name

/-- A reserved name is found by its code points. -/
theorem ofCodePoints?_eq_some {codePoints : List Nat} {reserved : Reserved}
    (h : Reserved.ofCodePoints? codePoints = some reserved) :
    codePoints = reserved.name.map Char.toNat := by
  have hname := List.find?_some h
  rwa [decide_eq_true_eq] at hname

/-- Code points that make no reserved name are not those of one. -/
theorem ofCodePoints?_eq_none {codePoints : List Nat}
    (h : Reserved.ofCodePoints? codePoints = none) (reserved : Reserved) :
    codePoints ≠ reserved.name.map Char.toNat := by
  have hall : reserved ∈ Reserved.all := by cases reserved <;> decide
  have hnot := List.find?_eq_none.mp h reserved hall
  simpa using hnot

/-- **What giving a field can do**, if it succeeds: a field for all fields brings its own, and any
other one is added, unless nothing looks it up. -/
theorem assign_eq_ok (h : assign own field = .ok next) :
    (field.1 = Reserved.fields.name.map Char.toNat ∧ field.2 = .object next) ∨
      field.1 ≠ Reserved.fields.name.map Char.toNat ∧
        (next = own ++ [field] ∨
          next = own ∧ ∀ name, IsKnownName name → field.1 ≠ name.map Char.toNat) := by
  unfold assign at h
  split at h
  · next hname =>
    split at h
    · next nested hvalue =>
      rw [Except.ok.injEq] at h
      rw [h] at hvalue
      exact .inl ⟨ofCodePoints?_eq_some hname, hvalue⟩
    · exact absurd h (by simp)
  · exact absurd h (by simp)
  · exact absurd h (by simp)
  · next hname =>
    rw [ofCodePoints?_eq_some hname]
    exact .inr ⟨by decide, .inl (Except.ok.inj h).symm⟩
  · next hname =>
    refine .inr ⟨ofCodePoints?_eq_none hname .fields, ?_⟩
    split at h
    · exact .inl (Except.ok.inj h).symm
    · next hnames =>
      refine .inr ⟨(Except.ok.inj h).symm, ?_⟩
      rintro name (hmem | rfl)
      · intro heq
        exact hnames (List.any_eq_true.mpr ⟨name, hmem, decide_eq_true heq⟩)
      · exact ofCodePoints?_eq_none hname .layout

/-- A field that is not for all fields counts for its name. -/
theorem lastField?_assign (h : assign own field = .ok next)
    (hname : field.1 ≠ Reserved.fields.name.map Char.toNat) (hknown : IsKnownName name) :
    lastField? name next = lastField? name (own ++ [field]) := by
  rcases assign_eq_ok h with ⟨heq, -⟩ | ⟨-, rfl | ⟨rfl, hother⟩⟩
  · exact absurd heq hname
  · rfl
  · have hnone : lastField? name [field] = none := by
      rw [lastField?_eq_none_iff, List.forall_mem_singleton]
      exact hother name hknown
    rw [lastField?_append, hnone, Option.none_or]

/-- **Fields that are given one after the other count for their names**, as long as none of them is
for all fields. -/
theorem lastField?_assign_all (h : given.foldlM assign own = .ok next)
    (hnone : ∀ field ∈ given, field.1 ≠ Reserved.fields.name.map Char.toNat)
    (hknown : IsKnownName name) : lastField? name next = lastField? name (own ++ given) := by
  induction given generalizing own with
  | nil =>
    rw [List.append_nil, ← Except.ok.inj h]
  | cons field given ih =>
    rw [List.forall_mem_cons] at hnone
    rw [List.foldlM_cons] at h
    obtain ⟨middle, hfirst, hlater⟩ := exists_of_bind_eq_ok h
    rw [ih hlater hnone.2, lastField?_append, lastField?_assign hfirst hnone.1 hknown,
      ← lastField?_append, List.append_assoc, List.singleton_append]

/-- **Of the fields of a document those count that `IsOwn` describes.** -/
theorem exists_isOwn (h : ownFields fields = .ok own) :
    ∃ given, IsOwn fields given ∧
      ∀ name, IsKnownName name → lastField? name own = lastField? name given := by
  rw [ownFields] at h
  cases hlast : lastField? Reserved.fields.name fields with
  | none =>
    rw [lastField?_eq_none_iff] at hlast
    refine ⟨fields, .all hlast, ?_⟩
    intro name hknown
    have hnone : ∀ field ∈ distinctFields fields,
        field.1 ≠ Reserved.fields.name.map Char.toNat :=
      fun field hfield => hlast field (mem_of_mem_distinctFields hfield)
    rw [lastField?_assign_all h hnone hknown, List.nil_append, lastField?_distinctFields]
  | some value =>
    rw [← lastField?_distinctFields, lastField?_eq_some_iff] at hlast
    obtain ⟨before, after, hfields, hafter⟩ := hlast
    rw [hfields, List.foldlM_append] at h
    obtain ⟨middle, -, hlater⟩ := exists_of_bind_eq_ok h
    rw [List.foldlM_cons] at hlater
    obtain ⟨nested, hfirst, hbehind⟩ := exists_of_bind_eq_ok hlater
    rcases assign_eq_ok hfirst with ⟨-, hvalue⟩ | ⟨hne, -⟩
    · rw [show value = .object nested from hvalue] at hfields
      refine ⟨nested ++ after, .replaced hfields hafter, ?_⟩
      exact fun name hknown => lastField?_assign_all hbehind hafter hknown
    · exact absurd rfl hne

/-- All fields count if none is for all fields of the settings. -/
theorem IsOwn.eq_self (h : IsOwn fields own)
    (hnone : ∀ field ∈ fields, field.1 ≠ Reserved.fields.name.map Char.toNat) : own = fields := by
  cases h with
  | all _ => rfl
  | @replaced before nested after hfields _ =>
    have hmem : (Reserved.fields.name.map Char.toNat, .object nested) ∈ distinctFields fields := by
      rw [hfields]
      exact List.mem_append_right before List.mem_cons_self
    exact absurd rfl (hnone _ (mem_of_mem_distinctFields hmem))

/-- Fields that count are as short as those of the document. -/
theorem IsOwn.isShort (h : IsOwn fields own)
    (hshort : ∀ field ∈ fields, Json.IsShort field.2 ∧
      ∀ nested, field.2 = .object nested → ∀ inner ∈ nested, Json.IsShort inner.2) :
    ∀ field ∈ own, Json.IsShort field.2 := by
  intro field hfield
  cases h with
  | all _ => exact (hshort field hfield).1
  | @replaced before nested after hfields _ =>
    have hmem : ∀ other ∈ before ++ (Reserved.fields.name.map Char.toNat, .object nested) :: after,
        other ∈ fields := by
      rw [← hfields]
      exact fun other hother => mem_of_mem_distinctFields hother
    rcases List.mem_append.mp hfield with hnested | hafter
    · have hreplaced := hmem _ (List.mem_append_right before List.mem_cons_self)
      exact (hshort _ hreplaced).2 nested rfl field hnested
    · refine (hshort field (hmem field ?_)).1
      exact List.mem_append_right before (List.mem_cons_of_mem _ hafter)

/-! ## What counts is what is looked up -/

section Lookup

variable (hsame : ∀ name, IsKnownName name → lastField? name own = lastField? name given)
include hsame

/-- A setting is what a field gives, wherever its name has the same value. -/
theorem keepsField_congr {α : Type} {means : Json.Value → α → Prop} {default : α}
    (hname : name ∈ names) (setting : α) :
    KeepsField means default name own setting ↔ KeepsField means default name given setting := by
  simp only [KeepsField, ← lastField?_eq_some_iff, hsame name (.inl hname)]

/-- A field is not valid wherever its name has the same value. -/
theorem isInvalid_congr {α : Type} {means : Json.Value → α → Prop} (hname : name ∈ names) :
    IsInvalid means name own ↔ IsInvalid means name given := by
  simp only [IsInvalid, ← lastField?_eq_some_iff, hsame name (.inl hname)]

/-- Settings are what the fields give that are looked up. -/
theorem Keeps.congr {settings : Settings} (h : Keeps own settings) : Keeps given settings where
  maxSourceBytes := (keepsField_congr hsame (by decide) _).mp h.maxSourceBytes
  maxRulesBytes := (keepsField_congr hsame (by decide) _).mp h.maxRulesBytes
  outputFormat := (keepsField_congr hsame (by decide) _).mp h.outputFormat
  encoding := (keepsField_congr hsame (by decide) _).mp h.encoding
  checkExtensions := (keepsField_congr hsame (by decide) _).mp h.checkExtensions

/-- Some field is not valid if one of those is not that are looked up. -/
theorem hasInvalid_congr : HasInvalid own ↔ HasInvalid given := by
  unfold HasInvalid
  rw [isInvalid_congr hsame (by decide), isInvalid_congr hsame (by decide),
    isInvalid_congr hsame (by decide), isInvalid_congr hsame (by decide),
    isInvalid_congr hsame (by decide)]

end Lookup

end Settings

end RuleSweep
