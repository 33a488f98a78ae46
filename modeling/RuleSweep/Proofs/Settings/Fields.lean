/-
# What the fields of a document give

A setting is what the last field of its name gives, if that value is valid, and the default
otherwise; the other fields have no say in it.  The names, the values that are valid and what
they mean are described here without reading the fields one by one, and reading is shown to
agree with the description.
-/
import Mathlib.Data.List.TakeDrop
import RuleSweep.Proofs.Json.Objects
import RuleSweep.Settings

namespace RuleSweep

namespace Settings

/-! ## The last field of a name -/

/-- The value of a name in an object: no field behind it has the same name. -/
def IsLast (name : Text) (fields : Fields) (value : Json.Value) : Prop :=
  ∃ earlier later, fields = earlier ++ (name.map Char.toNat, value) :: later ∧
    ∀ field ∈ later, field.1 ≠ name.map Char.toNat

/-- The last field of a name is the one that counts. -/
theorem lastField?_eq_some_iff {name : Text} {fields : Fields} {value : Json.Value} :
    Json.Value.lastField? name fields = some value ↔ IsLast name fields value := by
  unfold Json.Value.lastField?
  rw [Option.map_eq_some_iff]
  constructor
  · rintro ⟨field, hfind, rfl⟩
    obtain ⟨hname, later, earlier, hfields, hlater⟩ := List.find?_eq_some_iff_append.mp hfind
    rw [decide_eq_true_eq] at hname
    refine ⟨earlier.reverse, later.reverse, ?_, ?_⟩
    · rw [← hname, ← List.reverse_reverse fields, hfields]
      simp
    · intro other hother
      have hne := hlater other (List.mem_reverse.mp hother)
      simpa using hne
  · rintro ⟨earlier, later, rfl, hlater⟩
    refine ⟨(name.map Char.toNat, value), ?_, rfl⟩
    rw [List.find?_eq_some_iff_append]
    refine ⟨decide_eq_true rfl, later.reverse, earlier.reverse, by simp, ?_⟩
    intro other hother
    have hne := hlater other (List.mem_reverse.mp hother)
    simpa using hne

/-- A name has one value at most. -/
theorem IsLast.unique {name : Text} {fields : Fields} {value other : Json.Value}
    (h : IsLast name fields value) (hother : IsLast name fields other) : other = value := by
  rw [← lastField?_eq_some_iff] at h hother
  rw [h, Option.some.injEq] at hother
  exact hother.symm

/-! ## Values that are valid -/

/-- A value is the size `n`: a whole number above zero. -/
def IsSize (value : Json.Value) (n : Int) : Prop :=
  value = .integer n ∧ 0 < n

/-- A value is the name of a format. -/
def IsFormat (value : Json.Value) (format : OutputFormat) : Prop :=
  value = .ofText format.name

/-- A name is that of a known encoding. -/
structure IsKnown (name : Text) : Prop where
  /-- It is not made of blanks alone. -/
  notBlank : name.trim ≠ []
  /-- It holds no zero character. -/
  noZero : '\x00' ∉ name
  /-- There is an encoding of the name. -/
  known : ∃ encoding, Encoding.ofName? name = some encoding

/-- A value is the name of a known encoding. -/
def IsEncoding (value : Json.Value) (name : Text) : Prop :=
  value = .ofText name ∧ IsKnown name

/-- A value is a truth value. -/
def IsTruth (value : Json.Value) (truth : Bool) : Prop :=
  value = .bool truth

/-- The values that give a size. -/
theorem size?_eq_some_iff {value : Json.Value} {n : Int} :
    size? value = some n ↔ IsSize value n := by
  unfold size? IsSize
  cases value with
  | integer m =>
    rw [Option.ite_none_right_eq_some, Option.some.injEq, Json.Value.integer.injEq]
    constructor
    · rintro ⟨hpos, rfl⟩
      exact ⟨rfl, hpos⟩
    · rintro ⟨rfl, hpos⟩
      exact ⟨hpos, rfl⟩
  | _ => simp

/-- The values that give a format. -/
theorem format?_eq_some_iff {value : Json.Value} {format : OutputFormat} :
    format? value = some format ↔ IsFormat value format := by
  unfold format? IsFormat Json.Value.ofText
  cases value with
  | string codePoints =>
    rw [Json.Value.string.injEq]
    constructor
    · intro h
      have hname := List.find?_some h
      rw [decide_eq_true_eq] at hname
      exact hname.symm
    · rintro rfl
      cases format with
      | text => rfl
      | html => rfl
      | segments => rfl
  | _ => simp

/-- The values that give a truth value. -/
theorem truth?_eq_some_iff {value : Json.Value} {truth : Bool} :
    truth? value = some truth ↔ IsTruth value truth := by
  unfold truth? IsTruth
  cases value with
  | bool found => rw [Option.some.injEq, Json.Value.bool.injEq]
  | _ => simp

/-- The text of a text's code points is that text. -/
theorem textOf_map (t : Text) : textOf (t.map Char.toNat) = .ok t := by
  have hplain : ∀ n ∈ t.map Char.toNat, (!isSurrogate n) = true := by
    intro n hn
    obtain ⟨c, -, rfl⟩ := List.mem_map.mp hn
    rw [isSurrogate_toNat, Bool.not_false]
  have hback : (t.map Char.toNat).map Char.ofNat = t := by
    rw [List.map_map]
    conv_rhs => rw [← List.map_id t]
    exact List.map_congr_left fun c _ => Char.ofNat_toNat c
  rw [textOf, List.span_eq_takeWhile_dropWhile, List.takeWhile_eq_self_iff.mpr hplain,
    List.dropWhile_eq_nil_iff.mpr hplain]
  show Except.ok ((t.map Char.toNat).map Char.ofNat) = Except.ok t
  rw [hback]

/-- A code point that makes a character other than zero is that of the character. -/
theorem toNat_ofNat_of_ne {n : Nat} (h : Char.ofNat n ≠ '\x00') : (Char.ofNat n).toNat = n := by
  by_cases hvalid : n.isValidChar
  · rw [Char.ofNat, dif_pos hvalid]
    rfl
  · rw [Char.ofNat, dif_neg hvalid] at h
    exact absurd rfl h

/-- Code points with a text that holds no zero character are the ones of that text. -/
theorem eq_map_of_textOf {codePoints : List Nat} {t : Text} (h : textOf codePoints = .ok t)
    (hzero : '\x00' ∉ t) : codePoints = t.map Char.toNat := by
  rw [textOf, List.span_eq_takeWhile_dropWhile] at h
  split at h
  · next plain hspan =>
    rw [Prod.mk.injEq] at hspan
    rw [Except.ok.injEq] at h
    have hplain : plain = codePoints := by
      rw [← hspan.1]
      exact List.takeWhile_eq_self_iff.mpr (List.dropWhile_eq_nil_iff.mp hspan.2)
    rw [← h, hplain] at hzero
    rw [← h, hplain, List.map_map]
    conv_lhs => rw [← List.map_id codePoints]
    apply List.map_congr_left
    intro n hn
    refine (toNat_ofNat_of_ne ?_).symm
    intro heq
    exact hzero (List.mem_map.mpr ⟨n, hn, heq⟩)
  · exact absurd h (by simp)

/-- A string is the name of an encoding if its text is a known name. -/
theorem isEncoding_string_iff {codePoints : List Nat} {t : Text} (h : textOf codePoints = .ok t)
    (name : Text) : IsEncoding (.string codePoints) name ↔ t = name ∧ IsKnown t := by
  unfold IsEncoding Json.Value.ofText
  rw [Json.Value.string.injEq]
  constructor
  · rintro ⟨rfl, hknown⟩
    rw [textOf_map, Except.ok.injEq] at h
    rw [← h]
    exact ⟨rfl, hknown⟩
  · rintro ⟨rfl, hknown⟩
    exact ⟨eq_map_of_textOf h hknown.noZero, hknown⟩

/-- A string gives the name of an encoding if its text is a known name. -/
theorem encoding?_string_eq_some_iff {codePoints : List Nat} {t : Text} {result : Option Text}
    (htext : textOf codePoints = .ok t) (h : encoding? (.string codePoints) = .ok result)
    (name : Text) : result = some name ↔ t = name ∧ IsKnown t := by
  rw [encoding?, htext] at h
  simp only at h
  split at h
  · next hblank =>
    rw [Except.ok.injEq] at h
    rw [← h]
    constructor
    · exact fun hnone => absurd hnone (by simp)
    · rintro ⟨-, hknown⟩
      exact absurd (List.isEmpty_iff.mp hblank) hknown.notBlank
  · next hblank =>
    split at h
    · exact absurd h (by simp)
    · next hzero =>
      rw [Except.ok.injEq] at h
      rw [← h, Option.map_eq_some_iff]
      constructor
      · rintro ⟨encoding, hencoding, rfl⟩
        refine ⟨rfl, ?_, ?_, encoding, hencoding⟩
        · intro htrim
          exact hblank (List.isEmpty_iff.mpr htrim)
        · intro hmem
          exact hzero (List.contains_iff_mem.mpr hmem)
      · rintro ⟨rfl, hknown⟩
        obtain ⟨encoding, hencoding⟩ := hknown.known
        exact ⟨encoding, hencoding, rfl⟩

/-- The values that give the name of an encoding, as far as they are no fault. -/
theorem encoding?_eq_ok {value : Json.Value} {result : Option Text}
    (h : encoding? value = .ok result) (name : Text) :
    result = some name ↔ IsEncoding value name := by
  cases value with
  | string codePoints =>
    cases htext : textOf codePoints with
    | error e =>
      rw [encoding?, htext] at h
      exact absurd h (by simp)
    | ok t => rw [encoding?_string_eq_some_iff htext h, isEncoding_string_iff htext]
  | _ =>
    rw [encoding?] at h
    · rw [Except.ok.injEq] at h
      rw [← h]
      simp [IsEncoding, Json.Value.ofText]
    · simp

/-! ## What a field gives -/

section Field

variable {α : Type}

/-- A setting is what the last field of a name gives; it is the default if there is no such field
or if its value is not valid. -/
def KeepsField (means : Json.Value → α → Prop) (default : α) (name : Text) (fields : Fields)
    (setting : α) : Prop :=
  (∃ value, IsLast name fields value ∧ means value setting) ∨
    (∀ value, IsLast name fields value → ∀ other, ¬ means value other) ∧ setting = default

/-- There is a field of the name, and its value is not valid. -/
def IsInvalid (means : Json.Value → α → Prop) (name : Text) (fields : Fields) : Prop :=
  ∃ value, IsLast name fields value ∧ ∀ setting, ¬ means value setting

variable {means : Json.Value → α → Prop} {default : α} {name : Text} {fields : Fields}
  {result : Option α}

/-- The value of the last field of a name gives the setting, and has to be mended if it is not
valid. -/
theorem checked_of_isLast {value : Json.Value} (hlast : IsLast name fields value)
    (hresult : ∀ setting, result = some setting ↔ means value setting) :
    KeepsField means default name fields (checked default result).1 ∧
      ((checked default result).2 = true ↔ IsInvalid means name fields) := by
  cases hread : result with
  | some setting =>
    have hmeans := (hresult setting).mp hread
    rw [checked]
    constructor
    · exact .inl ⟨value, hlast, hmeans⟩
    · constructor
      · exact fun h => absurd h (by simp)
      · rintro ⟨other, hother, hnot⟩
        rw [hlast.unique hother] at hnot
        exact absurd hmeans (hnot setting)
  | none =>
    have hnot : ∀ setting, ¬ means value setting := by
      intro setting hmeans
      rw [← hresult, hread] at hmeans
      exact absurd hmeans (by simp)
    rw [checked]
    constructor
    · refine .inr ⟨?_, rfl⟩
      intro other hother
      rw [hlast.unique hother]
      exact hnot
    · exact ⟨fun _ => ⟨value, hlast, hnot⟩, fun _ => rfl⟩

/-- A field that is missing gives the default, and needs no mending. -/
theorem checked_of_missing (hnone : ∀ value, ¬ IsLast name fields value) :
    KeepsField means default name fields (checked default (some default)).1 ∧
      ((checked default (some default)).2 = true ↔ IsInvalid means name fields) := by
  rw [checked]
  constructor
  · exact .inr ⟨fun value hvalue => absurd hvalue (hnone value), rfl⟩
  · constructor
    · exact fun h => absurd h (by simp)
    · rintro ⟨value, hvalue, -⟩
      exact absurd hvalue (hnone value)

/-- The value of a field, with a valid value in the place of a missing one, gives the setting
that is described, and it has to be mended just if the value is not valid. -/
theorem checked_getD (means : Json.Value → α → Prop) (default : α) (name : Text)
    (fields : Fields) {missing : Json.Value} (hmissing : means missing default)
    (hresult : ∀ setting, result = some setting ↔
      means ((Json.Value.lastField? name fields).getD missing) setting) :
    KeepsField means default name fields (checked default result).1 ∧
      ((checked default result).2 = true ↔ IsInvalid means name fields) := by
  cases hlast : Json.Value.lastField? name fields with
  | none =>
    rw [hlast, Option.getD_none] at hresult
    rw [(hresult default).mpr hmissing]
    apply checked_of_missing
    intro value hvalue
    rw [← lastField?_eq_some_iff, hlast] at hvalue
    exact absurd hvalue (by simp)
  | some value =>
    rw [hlast, Option.getD_some] at hresult
    exact checked_of_isLast (lastField?_eq_some_iff.mp hlast) hresult

end Field

/-! ## What a document gives -/

/-- The settings are what the fields of a document give, each by its own name. -/
structure Keeps (fields : Fields) (settings : Settings) : Prop where
  /-- The greatest size of a source. -/
  maxSourceBytes : KeepsField IsSize default.maxSourceBytes "max_source_bytes".toList fields
    settings.maxSourceBytes
  /-- The greatest size of a rule list. -/
  maxRulesBytes : KeepsField IsSize default.maxRulesBytes "max_rules_bytes".toList fields
    settings.maxRulesBytes
  /-- The format of the output. -/
  outputFormat : KeepsField IsFormat default.outputFormat "output_format".toList fields
    settings.outputFormat
  /-- The encoding. -/
  encoding : KeepsField IsEncoding default.encoding "encoding".toList fields settings.encoding
  /-- Whether input files have to have the names of text files. -/
  checkExtensions : KeepsField IsTruth default.checkExtensions "check_extensions".toList fields
    settings.checkExtensions

/-- Some field of a document has a value that is not valid. -/
def HasInvalid (fields : Fields) : Prop :=
  IsInvalid IsSize "max_source_bytes".toList fields ∨
    IsInvalid IsSize "max_rules_bytes".toList fields ∨
    IsInvalid IsFormat "output_format".toList fields ∨
    IsInvalid IsEncoding "encoding".toList fields ∨
    IsInvalid IsTruth "check_extensions".toList fields

/-- The default name of an encoding is known. -/
theorem isKnown_default : IsKnown default.encoding where
  notBlank := by decide
  noZero := by decide
  known := ⟨.charset .utf8, by decide⟩

/-- **Every field is checked by itself.** -/
theorem keeps_of_check {fields : Fields} {settings : Settings} {mended : Bool}
    (h : (Draft.ofFields fields).check = .ok (settings, mended)) :
    Keeps fields settings ∧ (mended = true ↔ HasInvalid fields) := by
  unfold Draft.check at h
  cases hencoding : encoding? (Draft.ofFields fields).encoding with
  | error e =>
    rw [hencoding] at h
    exact absurd h (by simp [Except.map])
  | ok name =>
    rw [hencoding] at h
    simp only [Except.map, Except.ok.injEq, Prod.mk.injEq] at h
    obtain ⟨hsettings, hmended⟩ := h
    have hsource := checked_getD IsSize default.maxSourceBytes "max_source_bytes".toList fields
      ⟨rfl, by decide⟩ fun n => size?_eq_some_iff
    have hrules := checked_getD IsSize default.maxRulesBytes "max_rules_bytes".toList fields
      ⟨rfl, by decide⟩ fun n => size?_eq_some_iff
    have hformat := checked_getD IsFormat default.outputFormat "output_format".toList fields rfl
      fun format => format?_eq_some_iff
    have hname := checked_getD IsEncoding default.encoding "encoding".toList fields
      ⟨rfl, isKnown_default⟩ (encoding?_eq_ok hencoding)
    have hcheck := checked_getD IsTruth default.checkExtensions "check_extensions".toList fields rfl
      fun truth => truth?_eq_some_iff
    rw [← hsettings, ← hmended]
    constructor
    · exact ⟨hsource.1, hrules.1, hformat.1, hname.1, hcheck.1⟩
    · simp only [Bool.or_eq_true, or_assoc]
      exact or_congr hsource.2 (or_congr hrules.2 (or_congr hformat.2
        (or_congr hname.2 hcheck.2)))

end Settings

end RuleSweep
