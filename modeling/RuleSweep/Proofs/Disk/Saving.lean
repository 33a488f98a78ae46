/-
# When a file cannot be saved

A file is saved in a folder that is made as far as it is missing.  When that fails, no folder is
there afterwards (`isFolder_ensureBack`), and so there is no file in it: a path whose file could not
be saved leads to no file (`read_of_save_error`).

As long as only few folders are missing on the way, and no zero character is met, it is the disk
that refuses: `save_refused`.
-/
import RuleSweep.Proofs.Disk.Changes

namespace RuleSweep

namespace Path

/-- What is in a folder has this folder in front of it. -/
theorem parent_child (folder : Path) (name : Text) : (folder.child name).parent = folder := by
  unfold parent child
  rw [List.dropLast_concat]

/-- A path holds a zero character if the folder does or the name. -/
theorem hasZero_child (folder : Path) (name : Text) :
    (folder.child name).hasZero = (folder.hasZero || name.contains '\x00') := by
  unfold hasZero child
  rw [List.any_append, List.any_cons, List.any_nil, Bool.or_false]

end Path

namespace Disk

variable {disk left : Disk} {path folder : Path} {anchor : Anchor} {e : DiskFault}
  {content : Bytes}

/-! ## Folders that are there -/

/-- A path leads to a folder exactly if it can be followed to one. -/
theorem isFolder_iff :
    disk.isFolder path = true ↔ path.hasZero = false ∧
      ∃ place, disk.place path = .ok place ∧ disk.node? place = some .folder := by
  rw [isFolder, look]
  by_cases hzero : path.hasZero = true
  · simp [hzero]
  · rw [if_neg hzero]
    cases hplace : disk.place path with
    | error kind => cases kind <;> simp
    | ok place =>
      cases hnode : disk.node? place with
      | none => simp [hnode]
      | some there => cases there <;> simp [hzero, hnode]

/-- In front of what a path leads to is a folder. -/
theorem isFolder_front {name : Text} {place : Place} (hzero : (folder.child name).hasZero = false)
    (h : disk.place (folder.child name) = .ok place) : disk.isFolder folder = true := by
  obtain ⟨hlong, hwalk⟩ := place_eq_ok_iff.mp h
  obtain ⟨holder, hholder, hfolder⟩ := walk_dropLast hwalk
  rw [Path.hasZero_child, Bool.or_eq_false_iff] at hzero
  rw [isFolder_iff]
  exact ⟨hzero.1, holder, place_eq_ok_iff.mpr ⟨isLongerThan_front hlong, hholder⟩, hfolder⟩

/-- A file that can be read is in a folder. -/
theorem isFolder_of_read {name : Text} (h : disk.read (folder.child name) = .ok content) :
    disk.isFolder folder = true := by
  obtain ⟨hzero, place, hplace, -⟩ := read_eq_ok_iff.mp h
  exact isFolder_front hzero hplace

/-! ## Folders that cannot be made -/

/-- Where a folder cannot be made because something is missing, there is no folder. -/
theorem isFolder_of_makeFolder (h : disk.makeFolder path = .error .missing) :
    disk.isFolder path = false := by
  rw [Bool.eq_false_iff]
  intro hfolder
  obtain ⟨-, place, hplace, hnode⟩ := isFolder_iff.mp hfolder
  simp [makeFolder, hplace, hnode] at h

/-- Where one folder cannot be made, there is none; and it is the disk that refuses. -/
theorem ensureOne_eq_error (h : disk.ensureOne path = .error e) :
    disk.isFolder path = false ∧ ∃ kind, e = .refused kind path.text := by
  rw [ensureOne] at h
  cases hmake : disk.makeFolder path with
  | ok made => simp [hmake] at h
  | error kind =>
    simp only [hmake] at h
    split at h
    · exact absurd h (by simp)
    · next hfolder => exact ⟨Bool.eq_false_iff.mpr hfolder, kind, (Except.error.inj h).symm⟩

/-- Where the folders on the way cannot be made, there is no folder at its end. -/
theorem isFolder_ensureBack {room : Nat} {back : List Text}
    (h : ensureBack anchor room back disk = (.error e, left)) :
    left.isFolder (pathBack anchor back) = false := by
  fun_induction ensureBack anchor room back disk with
  | case1 room disk made hmade => exact absurd h (by simp)
  | case2 room disk fault hmade =>
    rw [← (Prod.mk.inj h).2]
    exact (ensureOne_eq_error hmade).1
  | case3 room part back disk path made hmade => exact absurd h (by simp)
  | case4 part back disk path hmade =>
    rw [← (Prod.mk.inj h).2]
    exact isFolder_of_makeFolder hmade
  | case5 part back disk path hmade room fault stopped hready ih =>
    -- without a folder in front there is none at the end
    have hfront := ih (hready.trans h)
    rw [Bool.eq_false_iff]
    intro hfolder
    obtain ⟨hzero, place, hplace, -⟩ := isFolder_iff.mp hfolder
    have hchild : pathBack anchor (part :: back) = (pathBack anchor back).child part := by
      rw [pathBack, List.reverse_cons]
      rfl
    rw [hchild] at hzero hplace
    rw [isFolder_front hzero hplace] at hfront
    exact absurd hfront (by simp)
  | case6 part back disk path hmade room ready hready made hone => exact absurd h (by simp)
  | case7 part back disk path hmade room ready hready fault hone ih =>
    rw [← (Prod.mk.inj h).2]
    exact (ensureOne_eq_error hone).1
  | case8 room part back disk path kind hkind hmade hthere => exact absurd h (by simp)
  | case9 room part back disk path kind hkind hmade hthere =>
    rw [← (Prod.mk.inj h).2]
    exact Bool.eq_false_iff.mpr hthere

/-- **Where a folder cannot be made, there is none.** -/
theorem isFolder_ensureFolder (h : disk.ensureFolder folder = (.error e, left)) :
    left.isFolder folder = false := by
  rw [ensureFolder] at h
  split at h
  · next hzero =>
    rw [Bool.eq_false_iff]
    intro hfolder
    rw [(isFolder_iff.mp hfolder).1] at hzero
    exact absurd hzero (by simp)
  · have hback := isFolder_ensureBack h
    rwa [pathBack, List.reverse_reverse] at hback

/-- As long as there is room for all folders on the way, it is the disk that refuses to make
them. -/
theorem ensureBack_refused {room : Nat} {back : List Text} (hroom : back.length ≤ room)
    (h : ensureBack anchor room back disk = (.error e, left)) :
    ∃ kind text, e = .refused kind text := by
  fun_induction ensureBack anchor room back disk with
  | case1 room disk made hmade => exact absurd h (by simp)
  | case2 room disk fault hmade =>
    obtain ⟨-, kind, hkind⟩ := ensureOne_eq_error hmade
    rw [hkind, Prod.mk.injEq, Except.error.injEq] at h
    exact ⟨kind, _, h.1.symm⟩
  | case3 room part back disk path made hmade => exact absurd h (by simp)
  | case4 part back disk path hmade => exact absurd hroom (by simp)
  | case5 part back disk path hmade room fault stopped hready ih =>
    exact ih (Nat.le_of_succ_le_succ hroom) (hready.trans h)
  | case6 part back disk path hmade room ready hready made hone => exact absurd h (by simp)
  | case7 part back disk path hmade room ready hready fault hone ih =>
    obtain ⟨-, kind, hkind⟩ := ensureOne_eq_error hone
    rw [hkind, Prod.mk.injEq, Except.error.injEq] at h
    exact ⟨kind, _, h.1.symm⟩
  | case8 room part back disk path kind hkind hmade hthere => exact absurd h (by simp)
  | case9 room part back disk path kind hkind hmade hthere =>
    rw [Prod.mk.injEq, Except.error.injEq] at h
    exact ⟨kind, _, h.1.symm⟩

/-! ## Files that cannot be saved -/

/-- **When a file could not be saved, its path leads to no file.** -/
theorem read_of_save_error {name : Text}
    (h : disk.save (folder.child name) content = (.error e, left)) (found : Bytes) :
    left.read (folder.child name) ≠ .ok found := by
  intro hread
  rw [save, Path.parent_child] at h
  split at h
  · next fault ready hready =>
    rw [(Prod.mk.inj h).2] at hready
    have hnone := isFolder_ensureFolder hready
    rw [isFolder_of_read hread] at hnone
    exact absurd hnone (by simp)
  · next ready hready =>
    split at h
    · next fault hwrite =>
      -- a file that can be read can also be written
      rw [(Prod.mk.inj h).2] at hwrite
      obtain ⟨written, hwritten⟩ := write_of_read hread content
      rw [hwrite] at hwritten
      exact absurd hwritten (by simp)
    · exact absurd h (by simp)

/-- Where no zero character is met, it is the disk that refuses to change a file. -/
theorem update_refused {change : Bytes → Bytes} (hzero : path.hasZero = false)
    (h : disk.update path change = .error e) : ∃ kind text, e = .refused kind text := by
  rw [update, hzero, if_neg Bool.false_ne_true] at h
  cases hplace : disk.place path with
  | error kind =>
    simp only [hplace, Except.error.injEq] at h
    exact ⟨kind, _, h.symm⟩
  | ok place =>
    simp only [hplace] at h
    split at h
    · exact ⟨.folder, _, (Except.error.inj h).symm⟩
    · exact absurd h (by simp)
    · exact absurd h (by simp)

/-- **It is the disk that refuses to save a file**, if no zero character is met and the path to the
folder is not too long for all its folders to be made. -/
theorem save_refused {name : Text} (hzero : (folder.child name).hasZero = false)
    (hfew : folder.parts.length < missingLimit)
    (h : disk.save (folder.child name) content = (.error e, left)) :
    ∃ kind text, e = .refused kind text := by
  have hfolder : folder.hasZero = false := by
    rw [Path.hasZero_child, Bool.or_eq_false_iff] at hzero
    exact hzero.1
  rw [save, Path.parent_child] at h
  split at h
  · next fault ready hready =>
    rw [Except.error.inj (Prod.mk.inj h).1, ensureFolder, hfolder,
      if_neg Bool.false_ne_true] at hready
    refine ensureBack_refused ?_ hready
    rw [List.length_reverse]
    exact Nat.le_sub_one_of_lt hfew
  · split at h
    · next fault hwrite =>
      rw [Except.error.inj (Prod.mk.inj h).1] at hwrite
      exact update_refused hzero hwrite
    · exact absurd h (by simp)

end Disk

end RuleSweep
