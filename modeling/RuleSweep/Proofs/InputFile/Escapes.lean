/-
# What is not refused

Reading an input file in the encoding of a known name gives a text, or the file is refused, or one
of three other things happens.  The path is too long to be looked at; the file is too large, and so
large that its size cannot be shown; or the file is to be in UTF-16, and does not begin with the
mark.  `Escapes` names them, and `read_eq_error_iff` says that there is nothing else.

The second one needs a file of more bytes than any disk holds (`Size.le_of_tooLarge?_eq_none`).
Every other file is refused as too large exactly if it is larger than the limit:
`read_eq_tooLarge_iff`.
-/
import RuleSweep.Proofs.InputFile
import RuleSweep.Proofs.Settings.Fields

namespace RuleSweep

/-! ## Sizes that cannot be shown -/

/-- A rounded quotient is at most one more than the quotient. -/
theorem roundQuotient_le (n d : Nat) : roundQuotient n d ≤ n / d + 1 := by
  unfold roundQuotient
  dsimp only
  split
  · omega
  · split
    · omega
    · split
      · omega
      · omega

namespace Size

/-- A number of bytes that no disk holds.  All smaller ones can be shown. -/
def beyondDisks : Nat := tooManyBytes / 2

/-- Rounding to the bits that count makes a number at most twice as large. -/
theorem toSignificant_le (n : Nat) : toSignificant n ≤ 2 * n := by
  unfold toSignificant
  split
  · omega
  · next hlarge =>
    have hne : n ≠ 0 := by
      rintro rfl
      exact hlarge (Nat.two_pow_pos _)
    -- the unit of the last bit that counts is no more than the number
    have hunit : 2 ^ (n.log2 + 1 - significantBits) ≤ n := by
      refine le_trans (Nat.pow_le_pow_right (by decide) ?_) (Nat.log2_self_le hne)
      unfold significantBits
      omega
    show roundQuotient n (2 ^ (n.log2 + 1 - significantBits))
      * 2 ^ (n.log2 + 1 - significantBits) ≤ 2 * n
    generalize 2 ^ (n.log2 + 1 - significantBits) = unit at hunit
    calc roundQuotient n unit * unit
      _ ≤ (n / unit + 1) * unit := Nat.mul_le_mul_right unit (roundQuotient_le n unit)
      _ = n / unit * unit + unit := Nat.succ_mul _ _
      _ ≤ n + n := Nat.add_le_add (Nat.div_mul_le_self n unit) hunit
      _ = 2 * n := (Nat.two_mul n).symm

/-- A size that cannot be shown is one that no disk holds. -/
theorem le_of_megabytes?_eq_none {size : Int} (h : megabytes? size = none) :
    beyondDisks ≤ size.natAbs := by
  have hrounded : tooManyBytes ≤ toSignificant size.natAbs := by
    by_contra hless
    rw [megabytes?, if_neg hless] at h
    exact absurd h (by simp)
  have htwice := le_trans hrounded (toSignificant_le size.natAbs)
  unfold beyondDisks
  omega

/-- If the size of a file that is too large cannot be shown, or the limit cannot, no disk holds the
file. -/
theorem le_of_tooLarge?_eq_none {size limit : Int} (hlimit : 0 < limit) (hlarge : limit < size)
    (h : tooLarge? size limit = none) : beyondDisks ≤ size := by
  have hnone : megabytes? size = none ∨ megabytes? limit = none := by
    cases hsize : megabytes? size with
    | none => exact Or.inl rfl
    | some shown =>
      cases hmost : megabytes? limit with
      | none => exact Or.inr rfl
      | some most => simp [tooLarge?, hsize, hmost] at h
  rcases hnone with hnone | hnone
  · have hle := le_of_megabytes?_eq_none hnone
    omega
  · have hle := le_of_megabytes?_eq_none hnone
    omega

end Size

/-! ## Bytes without a mark -/

/-- Bytes lack their mark exactly if they should be in UTF-16, begin with no mark, and would be
read, low bytes first, as a text that is not empty. -/
theorem Charset.read_eq_noMark_iff {charset : Charset} {content : Bytes} :
    charset.read content = .error .noMark ↔
      charset = .utf16 ∧ Utf16.markedOrder? content = none ∧
        ∃ text, text ≠ [] ∧ Utf16.decode .little content = .ok text := by
  have hmapped : ∀ outcome : Except DecodeFault Text,
      (outcome.mapError ReadingFault.decode).map Text.plainNewlines ≠ .error .noMark := by
    intro outcome
    cases outcome <;> simp [Except.map, Except.mapError]
  by_cases hcharset : charset = .utf16
  · subst hcharset
    rw [read, decode, decodeUtf16]
    cases horder : Utf16.markedOrder? content with
    | some order => simp [hmapped]
    | none =>
      cases hdecode : Utf16.decode .little content with
      | error e => simp [Except.map]
      | ok text => cases text <;> simp [Except.map]
  · constructor
    · intro h
      cases charset with
      | utf16 => exact absurd rfl hcharset
      | _ => exact absurd h (hmapped _)
    · rintro ⟨h, -⟩
      exact absurd h hcharset

namespace InputFile

variable {disk : Disk} {path : Path} {demands : Demands} {fault : Fault} {content : Bytes}

/-! ## What happens besides -/

/-- Why an input file gives no text, although it is not refused. -/
inductive Escapes (disk : Disk) (path : Path) (demands : Demands) : Fault → Prop
  /-- The path, or a name in it, is too long to be looked at. -/
  | tooLong (hzero : path.hasZero = false) (hplace : disk.place path = .error .longName) :
    Escapes disk path demands (.disk (.refused .longName path.text))
  /-- The file is too large, and its size or the limit cannot be shown. -/
  | beyond {content : Bytes} (hlook : disk.look path = .ok (some (.file content)))
    (hlarge : demands.limit < content.length)
    (hshown : Size.tooLarge? content.length demands.limit = none) :
    Escapes disk path demands .sizeOverflow
  /-- The file is to be in UTF-16 and lacks the mark. -/
  | unmarked {content : Bytes} (hlook : disk.look path = .ok (some (.file content)))
    (hlimit : content.length ≤ demands.limit)
    (htextName : demands.textName = true → isTextName path.name = true)
    (hname : Encoding.ofName? demands.encoding = some (.charset .utf16))
    (hmark : Utf16.markedOrder? content = none)
    (hdecode : ∃ text, text ≠ [] ∧ Utf16.decode .little content = .ok text) :
    Escapes disk path demands .noMark

/-- It is a fault to look at a path only if it is too long. -/
theorem look_eq_error_iff {e : DiskFault} :
    disk.look path = .error e ↔ path.hasZero = false ∧ disk.place path = .error .longName ∧
      e = .refused .longName path.text := by
  rw [Disk.look]
  by_cases hzero : path.hasZero = true
  · simp [hzero]
  · rw [if_neg hzero]
    cases hplace : disk.place path with
    | ok place => simp
    | error kind => cases kind <;> simp [hzero, eq_comm]

/-- The faults of bytes in the encoding of a known name: they are refused or lack their mark. -/
theorem decode_eq_error {encoding : Text} (hknown : Settings.IsKnown encoding)
    (h : decode path encoding content = .error fault) :
    (∃ e, fault = .refused e) ∨
      fault = .noMark ∧ ∃ charset, Encoding.ofName? encoding = some (.charset charset) ∧
        charset.read content = .error .noMark := by
  obtain ⟨found, hfound⟩ := hknown.known
  rw [decode, if_neg (by rw [List.contains_iff_mem]; exact hknown.noZero), hfound] at h
  cases found with
  | transform => exact Or.inl ⟨_, (Except.error.inj h).symm⟩
  | charset charset =>
    cases hread : charset.read content with
    | ok text =>
      simp only [hread] at h
      exact absurd h (by simp)
    | error e =>
      cases e with
      | decode e =>
        simp only [hread, Except.error.injEq] at h
        exact Or.inl ⟨_, h.symm⟩
      | noMark =>
        simp only [hread, Except.error.injEq] at h
        exact Or.inr ⟨h.symm, charset, hfound, hread⟩

/-- What escapes is a fault, and no refusal. -/
theorem read_of_escapes (hzero : '\x00' ∉ demands.encoding)
    (h : Escapes disk path demands fault) : read disk path demands = .error fault := by
  cases h with
  | tooLong hpath hplace => rw [read, look_eq_error_iff.mpr ⟨hpath, hplace, rfl⟩]
  | beyond hlook hlarge hshown =>
    rw [read, hlook]
    simp only [readContent, if_pos hlarge, hshown]
  | unmarked hlook hlimit htextName hname hmark hdecode =>
    have hread := Charset.read_eq_noMark_iff.mpr ⟨rfl, hmark, hdecode⟩
    have htext : ¬ (demands.textName && !isTextName path.name) = true := by
      simpa using htextName
    rw [read, hlook]
    simp only [readContent, if_neg (Int.not_lt.mpr hlimit), if_neg htext, decode,
      List.contains_iff_mem, if_neg hzero, hname, hread]

/-- **Whatever is wrong with a file is refused or escapes**, if the encoding is known. -/
theorem read_eq_error_iff (hknown : Settings.IsKnown demands.encoding) :
    (read disk path demands = .error fault ∧ ∀ e, fault ≠ .refused e) ↔
      Escapes disk path demands fault := by
  constructor
  · rintro ⟨h, hrefused⟩
    rw [read] at h
    cases hlook : disk.look path with
    | error e =>
      obtain ⟨hzero, hplace, rfl⟩ := look_eq_error_iff.mp hlook
      rw [hlook] at h
      rw [← Except.error.inj h]
      exact .tooLong hzero hplace
    | ok there =>
      rw [hlook] at h
      rcases there with _ | ⟨content⟩ | _
      · exact absurd (Except.error.inj h).symm (hrefused _)
      · replace h : readContent path demands content = .error fault := h
        rw [readContent] at h
        by_cases hlarge : demands.limit < content.length
        · rw [if_pos hlarge] at h
          cases hshown : Size.tooLarge? content.length demands.limit with
          | none =>
            simp only [hshown, Except.error.injEq] at h
            rw [← h]
            exact .beyond hlook hlarge hshown
          | some message =>
            simp only [hshown, Except.error.injEq] at h
            exact absurd h.symm (hrefused _)
        · rw [if_neg hlarge] at h
          by_cases htext : (demands.textName && !isTextName path.name) = true
          · rw [if_pos htext] at h
            exact absurd (Except.error.inj h).symm (hrefused _)
          · rw [if_neg htext] at h
            rcases decode_eq_error hknown h with ⟨e, he⟩ | ⟨rfl, charset, hname, hread⟩
            · exact absurd he (hrefused e)
            · obtain ⟨rfl, hmark, hdecode⟩ := Charset.read_eq_noMark_iff.mp hread
              exact .unmarked hlook (Int.not_lt.mp hlarge) (by simpa using htext) hname hmark hdecode
      · exact absurd (Except.error.inj h).symm (hrefused _)
  · intro h
    refine ⟨read_of_escapes hknown.noZero h, ?_⟩
    intro e
    cases h with
    | tooLong => simp
    | beyond => simp
    | unmarked => simp

/-- **A file is refused as too large** exactly if it is there and larger than the limit, if a disk
can hold it. -/
theorem read_eq_tooLarge_iff {size limit : Int} (hpos : 0 < demands.limit)
    (hsize : size < Size.beyondDisks) :
    read disk path demands = .error (.refused (.tooLarge size limit)) ↔
      limit = demands.limit ∧ ∃ content, disk.look path = .ok (some (.file content)) ∧
        size = content.length ∧ demands.limit < content.length := by
  have hdecode : ∀ content, decode path demands.encoding content
      ≠ .error (.refused (.tooLarge size limit)) := by
    intro content
    rw [decode]
    split
    · simp
    · split
      · simp
      · simp
      · split <;> simp
  rw [read]
  cases hlook : disk.look path with
  | error e => simp
  | ok there =>
    rcases there with _ | ⟨content⟩ | _
    · simp
    · simp only [Except.ok.injEq, Option.some.injEq, Node.file.injEq, exists_eq_left', readContent]
      by_cases hlarge : demands.limit < content.length
      · rw [if_pos hlarge]
        cases hshown : Size.tooLarge? content.length demands.limit with
        | none =>
          have hbeyond := Size.le_of_tooLarge?_eq_none hpos hlarge hshown
          constructor
          · simp
          · rintro ⟨-, rfl, -⟩
            exact absurd hsize (Int.not_lt.mpr hbeyond)
        | some message => simp [hlarge, eq_comm, and_comm]
      · rw [if_neg hlarge]
        constructor
        · intro h
          split at h
          · simp at h
          · exact absurd h (hdecode content)
        · rintro ⟨-, -, h⟩
          exact absurd h hlarge
    · simp

end InputFile

end RuleSweep
