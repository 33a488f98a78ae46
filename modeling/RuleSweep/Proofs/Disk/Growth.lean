/-
# Disks that grow

Making folders, and adding to files, takes nothing away from a disk.  Everything that was there
when folders were made is there afterwards (`growsTo_ensureFolder`), whether or not all of them
could be made.

A change of a file neither makes nor removes a folder, and a path is followed through folders only.
So where only files of one name have changed (`KeepsApart`), a file of another name is read as
before: `KeepsApart.read_iff`.
-/
import RuleSweep.Proofs.Disk

namespace RuleSweep

namespace Disk

variable {disk kept grown : Disk} {path : Path}

/-! ## Growing -/

/-- Everything on a disk is still there on another one, and paths begin at the same place. -/
structure GrowsTo (disk grown : Disk) : Prop where
  /-- The current folder is the same. -/
  current : grown.current = disk.current
  /-- Everything is still there. -/
  node : ∀ place there, disk.node? place = some there → grown.node? place = some there

namespace GrowsTo

/-- A disk grows to itself. -/
theorem refl (disk : Disk) : disk.GrowsTo disk where
  current := rfl
  node _ _ h := h

/-- What grows twice grows. -/
theorem trans {later : Disk} (h : disk.GrowsTo grown) (hlater : grown.GrowsTo later) :
    disk.GrowsTo later where
  current := hlater.current.trans h.current
  node place there hthere := hlater.node place there (h.node place there hthere)

/-- A disk that grows keeps its folders. -/
theorem keepsFolders (h : disk.GrowsTo grown) : disk.KeepsFolders grown where
  current := h.current
  folder place hfolder := h.node place .folder hfolder

end GrowsTo

/-- Putting something where nothing is lets a disk grow. -/
theorem growsTo_put_of_none {target : Place} (h : disk.node? target = none) (node : Node) :
    disk.GrowsTo (disk.put target node) where
  current := rfl
  node := by
    intro place there hthere
    have hother : place ≠ target := by
      rintro rfl
      exact absurd (h.symm.trans hthere) (by simp)
    rw [node?_put_of_ne hother]
    exact hthere

/-- Putting at a place what is there already changes nothing. -/
theorem node?_put_same {target : Place} {there : Node} (hne : target ≠ [])
    (h : disk.node? target = some there) (place : Place) :
    (disk.put target there).node? place = disk.node? place := by
  by_cases hplace : place = target
  · rw [hplace, node?_put_self hne, h]
  · rw [node?_put_of_ne hplace]

/-! ## Making folders -/

/-- A folder is made only where nothing is. -/
theorem growsTo_makeFolder (h : disk.makeFolder path = .ok grown) : disk.GrowsTo grown := by
  rw [makeFolder] at h
  cases hplace : disk.place path with
  | error kind => simp [hplace] at h
  | ok place =>
    cases hnode : disk.node? place with
    | some there => simp [hplace, hnode] at h
    | none =>
      simp only [hplace, hnode, Except.ok.injEq] at h
      rw [← h]
      exact growsTo_put_of_none hnode .folder

/-- Making sure of one folder lets a disk grow. -/
theorem growsTo_ensureOne (h : disk.ensureOne path = .ok grown) : disk.GrowsTo grown := by
  rw [ensureOne] at h
  cases hmake : disk.makeFolder path with
  | ok made =>
    rw [hmake, Except.ok.injEq] at h
    rw [← h]
    exact growsTo_makeFolder hmake
  | error kind =>
    simp only [hmake] at h
    split at h
    · rw [Except.ok.inj h]
      exact GrowsTo.refl grown
    · exact absurd h (by simp)

/-- Making sure of the folders on the way lets a disk grow, whether or not it succeeds. -/
theorem growsTo_ensureBack (anchor : Anchor) (room : Nat) (back : List Text) (disk : Disk) :
    disk.GrowsTo (ensureBack anchor room back disk).2 := by
  fun_induction ensureBack anchor room back disk with
  | case1 room disk made hmade => exact growsTo_ensureOne hmade
  | case2 room disk e hmade => exact GrowsTo.refl disk
  | case3 room part back disk path made hmade => exact growsTo_makeFolder hmade
  | case4 part back disk path hmade => exact GrowsTo.refl disk
  | case5 part back disk path hmade room e left hfront ih =>
    rw [hfront] at ih
    exact ih
  | case6 part back disk path hmade room ready hfront made hone ih =>
    rw [hfront] at ih
    exact ih.trans (growsTo_ensureOne hone)
  | case7 part back disk path hmade room ready hfront e hone ih =>
    rw [hfront] at ih
    exact ih
  | case8 room part back disk path kind hkind hmade hfolder => exact GrowsTo.refl disk
  | case9 room part back disk path kind hkind hmade hfolder => exact GrowsTo.refl disk

/-- **Making folders takes nothing away**, whether or not it succeeds. -/
theorem growsTo_ensureFolder (disk : Disk) (path : Path) :
    disk.GrowsTo (disk.ensureFolder path).2 := by
  rw [ensureFolder]
  split
  · exact GrowsTo.refl disk
  · exact growsTo_ensureBack path.anchor (missingLimit - 1) path.parts.reverse disk

/-! ## Changing a file -/

/-- Adding nothing to a file makes it if it is not there, and takes nothing away. -/
theorem growsTo_append_nil {opened : Disk} (h : disk.append path [] = .ok opened) :
    disk.GrowsTo opened := by
  rw [append] at h
  obtain ⟨-, place, old, -, hfolder, hnode, rfl⟩ := update_eq_ok h
  rw [List.append_nil]
  rcases hnode with hnode | ⟨hnode, -⟩
  · refine ⟨rfl, fun other there hthere => ?_⟩
    rw [node?_put_same (ne_nil_of_node?_ne hfolder) hnode]
    exact hthere
  · exact growsTo_put_of_none hnode _

/-- Where the folders and a file are kept, the file is read as before. -/
theorem KeepsFolders.read (h : disk.KeepsFolders kept) {content : Bytes}
    (hread : disk.read path = .ok content)
    (hnode : ∀ place, disk.place path = .ok place → kept.node? place = disk.node? place) :
    kept.read path = .ok content := by
  rw [read_eq_ok_iff] at hread ⊢
  obtain ⟨hzero, place, hplace, hthere⟩ := hread
  refine ⟨hzero, place, h.place hplace, ?_⟩
  rw [hnode place hplace]
  exact hthere

/-! ## The last name of a place -/

/-- Behind a last name that does not lead upward, a place ends in this name. -/
theorem getLast?_of_walk {start goal : Place} {front : List Text} {last : Text}
    (hlast : last ≠ Path.upward) (h : disk.walk start (front ++ [last]) = .ok goal) :
    goal.getLast? = some last := by
  induction front generalizing start with
  | nil =>
    rw [List.nil_append, walk_cons_eq_ok_iff] at h
    obtain ⟨-, -, hstep⟩ := h
    rw [walk, Except.ok.injEq, step, if_neg hlast] at hstep
    rw [← hstep, List.getLast?_concat]
  | cons part front ih =>
    rw [List.cons_append, walk_cons_eq_ok_iff] at h
    exact ih h.2.2

/-- A path whose last name does not lead upward leads to a place that ends in this name. -/
theorem getLast?_of_place {goal : Place} {last : Text} (hparts : path.parts.getLast? = some last)
    (hlast : last ≠ Path.upward) (h : disk.place path = .ok goal) :
    goal.getLast? = some last := by
  obtain ⟨front, hfront⟩ := List.getLast?_eq_some_iff.mp hparts
  have hwalk := (place_eq_ok_iff.mp h).2
  rw [hfront] at hwalk
  exact getLast?_of_walk hlast hwalk

/-- Names that never lead upward lead on and on. -/
theorem eq_append_of_walk {start goal : Place} {parts : List Text} (hparts : Path.upward ∉ parts)
    (h : disk.walk start parts = .ok goal) : goal = start ++ parts := by
  induction parts generalizing start with
  | nil =>
    rw [walk, Except.ok.injEq] at h
    rw [← h, List.append_nil]
  | cons part parts ih =>
    rw [List.mem_cons, not_or] at hparts
    rw [walk_cons_eq_ok_iff] at h
    obtain ⟨-, -, hwalk⟩ := h
    rw [step, if_neg (Ne.symm hparts.1)] at hwalk
    rw [ih hparts.2 hwalk, List.append_assoc, List.singleton_append]

end Disk

/-- A path ends in a name, which is another one than the given. -/
def Path.EndsApart (path : Path) (name : Text) : Prop :=
  ∃ last, path.parts.getLast? = some last ∧ last ≠ upward ∧ last ≠ name

namespace Disk

variable {disk changed later : Disk} {path : Path} {name : Text}

/-! ## Changing files of one name -/

/-- Two disks have the same folders, and the same files besides those of one name. -/
structure KeepsApart (name : Text) (disk changed : Disk) : Prop where
  /-- The current folder is the same. -/
  current : changed.current = disk.current
  /-- The folders are the same. -/
  folder : ∀ place, changed.node? place = some .folder ↔ disk.node? place = some .folder
  /-- What has another name is the same. -/
  node : ∀ place, place.getLast? ≠ some name → changed.node? place = disk.node? place

namespace KeepsApart

/-- A disk has the same folders and files as itself. -/
theorem refl (name : Text) (disk : Disk) : KeepsApart name disk disk :=
  ⟨rfl, fun _ => Iff.rfl, fun _ _ => rfl⟩

/-- What one disk has in common with another, that one has in common with the first. -/
theorem symm (h : KeepsApart name disk changed) : KeepsApart name changed disk :=
  ⟨h.current.symm, fun place => (h.folder place).symm, fun place hplace => (h.node place hplace).symm⟩

/-- Several changes leave alone what each of them does. -/
theorem trans (h : KeepsApart name disk changed) (hlater : KeepsApart name changed later) :
    KeepsApart name disk later where
  current := hlater.current.trans h.current
  folder place := (hlater.folder place).trans (h.folder place)
  node place hplace := (hlater.node place hplace).trans (h.node place hplace)

/-- A file of another name that can be read is read as before. -/
theorem read (h : KeepsApart name disk changed) (hpath : path.EndsApart name) {content : Bytes}
    (hread : disk.read path = .ok content) : changed.read path = .ok content := by
  have hkeeps : disk.KeepsFolders changed := ⟨h.current, fun place => (h.folder place).mpr⟩
  apply hkeeps.read hread
  intro place hplace
  apply h.node
  -- the place ends in the last name of the path
  obtain ⟨last, hlast, hupward, hne⟩ := hpath
  rw [getLast?_of_place hlast hupward hplace, ne_eq, Option.some.injEq]
  exact hne

/-- **A file of another name is read as before**, if it can be read at all. -/
theorem read_iff (h : KeepsApart name disk changed) (hpath : path.EndsApart name)
    {content : Bytes} : changed.read path = .ok content ↔ disk.read path = .ok content :=
  ⟨h.symm.read hpath, h.read hpath⟩

end KeepsApart

/-- A change of a file leaves everything of another name alone. -/
theorem keepsApart_update {change : Bytes → Bytes} (hparts : path.parts.getLast? = some name)
    (hname : name ≠ Path.upward) (h : disk.update path change = .ok changed) :
    KeepsApart name disk changed := by
  obtain ⟨-, target, old, htarget, hfolder, -, rfl⟩ := update_eq_ok h
  refine ⟨rfl, ?_, ?_⟩
  · intro place
    by_cases hplace : place = target
    · subst hplace
      rw [node?_put_self (ne_nil_of_node?_ne hfolder)]
      simp [hfolder]
    · rw [node?_put_of_ne hplace]
  · intro place hplace
    apply node?_put_of_ne
    rintro rfl
    exact hplace (getLast?_of_place hparts hname htarget)

end Disk

end RuleSweep
