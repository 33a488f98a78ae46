/-
# What may change on a disk

Between two disks only some files and folders may have changed: `ChangesOnly` allows a file to be
made or changed at the end of one of some paths, and a folder to be made on the way of one of some
others.  Every operation of a disk keeps to the path that it is given, whether or not it succeeds;
and what is done one after the other keeps to the same paths (`ChangesOnly.trans`).

The place at the end of a path, and the places on its way, are told from its names alone, without
looking at what is there (`eq_goal_of_place`).
-/
import RuleSweep.Proofs.Journal
import RuleSweep.Proofs.Settings.Load

namespace RuleSweep

namespace Disk

variable {disk changed later : Disk} {path : Path} {files folders : List Path}

/-! ## Places of a path -/

/-- The place that the names of a path lead to, whatever is there. -/
def goal (disk : Disk) (path : Path) : Place :=
  Path.follow (if path.anchor = .here then disk.current else []) path.parts

/-- The first names of a path lead to a place. -/
def IsOnWay (disk : Disk) (path : Path) (place : Place) : Prop :=
  ∃ front, front <+: path.parts ∧ place = disk.goal ⟨path.anchor, front⟩

/-- Names that can be followed lead where they lead without looking. -/
theorem eq_follow_of_walk {start goal : Place} {parts : List Text}
    (h : disk.walk start parts = .ok goal) : goal = Path.follow start parts := by
  induction parts generalizing start with
  | nil => exact (Except.ok.inj h).symm
  | cons part parts ih =>
    rw [walk_cons_eq_ok_iff] at h
    exact ih h.2.2

/-- A path that can be followed leads to its goal. -/
theorem eq_goal_of_place {place : Place} (h : disk.place path = .ok place) :
    place = disk.goal path :=
  eq_follow_of_walk (place_eq_ok_iff.mp h).2

/-! ## Changes -/

/-- Between two disks, only the files that some paths lead to were made or changed, and only
folders on the way of some other paths were made. -/
structure ChangesOnly (files folders : List Path) (disk changed : Disk) : Prop where
  /-- The current folder is the same. -/
  current : changed.current = disk.current
  /-- What is not the same is one of the files, or a new folder on one of the ways. -/
  node : ∀ place, changed.node? place ≠ disk.node? place →
    (∃ file ∈ files, place = disk.goal file ∧ disk.node? place ≠ some .folder ∧
      ∃ content, changed.node? place = some (.file content)) ∨
    ∃ folder ∈ folders, disk.IsOnWay folder place ∧ disk.node? place = none ∧
      changed.node? place = some .folder

namespace ChangesOnly

/-- Nothing has changed. -/
theorem refl (files folders : List Path) (disk : Disk) : ChangesOnly files folders disk disk where
  current := rfl
  node _ h := absurd rfl h

/-- What changes twice in this way changes in this way. -/
theorem trans (h : ChangesOnly files folders disk changed)
    (hlater : ChangesOnly files folders changed later) :
    ChangesOnly files folders disk later where
  current := hlater.current.trans h.current
  node := by
    have hgoal : ∀ path, changed.goal path = disk.goal path := by
      intro path
      rw [goal, goal, h.current]
    have hway : ∀ path place, changed.IsOnWay path place → disk.IsOnWay path place := by
      rintro path place ⟨front, hfront, rfl⟩
      exact ⟨front, hfront, hgoal _⟩
    intro place hplace
    by_cases hfirst : changed.node? place = disk.node? place
    · -- only the second change is one
      rw [← hfirst] at hplace ⊢
      rcases hlater.node place hplace with ⟨file, hfile, heq, hrest⟩ | ⟨folder, hfolder, hon, hrest⟩
      · exact Or.inl ⟨file, hfile, heq.trans (hgoal file), hrest⟩
      · exact Or.inr ⟨folder, hfolder, hway folder place hon, hrest⟩
    · by_cases hsecond : later.node? place = changed.node? place
      · rw [hsecond]
        exact h.node place hfirst
      · -- a place that changes twice is that of a file both times
        rcases h.node place hfirst with ⟨file, hfile, heq, hold, content, hcontent⟩
          | ⟨-, -, -, -, hmade⟩
        · rcases hlater.node place hsecond with ⟨-, -, -, -, hnew⟩ | ⟨-, -, -, hnone, -⟩
          · exact Or.inl ⟨file, hfile, heq, hold, hnew⟩
          · rw [hcontent] at hnone
            exact absurd hnone (by simp)
        · rcases hlater.node place hsecond with ⟨-, -, -, hother, -⟩ | ⟨-, -, -, hnone, -⟩
          · exact absurd hmade hother
          · rw [hmade] at hnone
            exact absurd hnone (by simp)

end ChangesOnly

/-- What changes when something is put at a place is that place. -/
theorem eq_of_node?_put_ne {place other : Place} {node : Node}
    (h : (disk.put place node).node? other ≠ disk.node? other) : other = place := by
  by_contra hne
  exact h (node?_put_of_ne hne node)

/-- A change of a file is one of that file only. -/
theorem changesOnly_update {change : Bytes → Bytes} (hfile : path ∈ files)
    (h : disk.update path change = .ok changed) : ChangesOnly files folders disk changed := by
  obtain ⟨-, place, old, hplace, hfolder, -, rfl⟩ := update_eq_ok h
  refine ⟨rfl, ?_⟩
  intro other hother
  obtain rfl := eq_of_node?_put_ne hother
  left
  exact ⟨path, hfile, eq_goal_of_place hplace, hfolder, change old,
    node?_put_self (ne_nil_of_node?_ne hfolder) _⟩

/-! ## Making folders -/

section Folders

variable {folder : Path} (hfolder : folder ∈ folders)
include hfolder

/-- A folder is made at the end of the first names of a path. -/
theorem changesOnly_makeFolder {front : List Text} (hfront : front <+: folder.parts)
    (h : disk.makeFolder ⟨folder.anchor, front⟩ = .ok changed) :
    ChangesOnly files folders disk changed := by
  rw [makeFolder] at h
  cases hplace : disk.place ⟨folder.anchor, front⟩ with
  | error kind => simp [hplace] at h
  | ok place =>
    cases hnode : disk.node? place with
    | some there => simp [hplace, hnode] at h
    | none =>
      simp only [hplace, hnode, Except.ok.injEq] at h
      rw [← h]
      refine ⟨rfl, ?_⟩
      intro other hother
      obtain rfl := eq_of_node?_put_ne hother
      right
      have hne : other ≠ [] := by
        rintro rfl
        exact absurd hnode (by simp [node?])
      exact ⟨folder, hfolder, ⟨front, hfront, eq_goal_of_place hplace⟩, hnode,
        node?_put_self hne _⟩

/-- Making sure of a folder on the way of a path changes nothing else. -/
theorem changesOnly_ensureOne {front : List Text} (hfront : front <+: folder.parts)
    (h : disk.ensureOne ⟨folder.anchor, front⟩ = .ok changed) :
    ChangesOnly files folders disk changed := by
  rw [ensureOne] at h
  cases hmake : disk.makeFolder ⟨folder.anchor, front⟩ with
  | ok made =>
    rw [hmake, Except.ok.injEq] at h
    rw [← h]
    exact changesOnly_makeFolder hfolder hfront hmake
  | error kind =>
    simp only [hmake] at h
    split at h
    · rw [Except.ok.inj h]
      exact ChangesOnly.refl files folders changed
    · exact absurd h (by simp)

/-- Making sure of the folders on the way changes nothing else, whether or not it succeeds. -/
theorem changesOnly_ensureBack {anchor : Anchor} (hanchor : anchor = folder.anchor) (room : Nat)
    (back : List Text) (disk : Disk) (hback : back.reverse <+: folder.parts) :
    ChangesOnly files folders disk (ensureBack anchor room back disk).2 := by
  subst hanchor
  have hfront : ∀ {part : Text} {back : List Text}, (part :: back).reverse <+: folder.parts →
      back.reverse <+: folder.parts := by
    intro part back h
    rw [List.reverse_cons] at h
    exact (List.prefix_append _ _).trans h
  fun_induction ensureBack folder.anchor room back disk with
  | case1 room disk made hmade => exact changesOnly_ensureOne hfolder hback hmade
  | case2 room disk e hmade => exact ChangesOnly.refl files folders disk
  | case3 room part back disk path made hmade => exact changesOnly_makeFolder hfolder hback hmade
  | case4 part back disk path hmade => exact ChangesOnly.refl files folders disk
  | case5 part back disk path hmade room e left hready ih =>
    rw [hready] at ih
    exact ih (hfront hback)
  | case6 part back disk path hmade room ready hready made hone ih =>
    rw [hready] at ih
    exact (ih (hfront hback)).trans (changesOnly_ensureOne hfolder hback hone)
  | case7 part back disk path hmade room ready hready e hone ih =>
    rw [hready] at ih
    exact ih (hfront hback)
  | case8 room part back disk path kind hkind hmade hthere => exact ChangesOnly.refl files folders disk
  | case9 room part back disk path kind hkind hmade hthere => exact ChangesOnly.refl files folders disk

/-- **Making a folder changes nothing but the folders on its way**, whether or not it succeeds. -/
theorem changesOnly_ensureFolder (disk : Disk) :
    ChangesOnly files folders disk (disk.ensureFolder folder).2 := by
  rw [ensureFolder]
  split
  · exact ChangesOnly.refl files folders disk
  · apply changesOnly_ensureBack hfolder rfl
    rw [List.reverse_reverse]

end Folders

/-- **Saving a file changes nothing but the file and the folders on its way**, whether or not it
succeeds. -/
theorem changesOnly_save (hfile : path ∈ files) (hfolder : path.parent ∈ folders) (content : Bytes)
    (disk : Disk) : ChangesOnly files folders disk (disk.save path content).2 := by
  have hready : ChangesOnly files folders disk (disk.ensureFolder path.parent).2 :=
    changesOnly_ensureFolder hfolder disk
  rw [save]
  cases hensure : disk.ensureFolder path.parent with
  | mk outcome ready =>
    rw [hensure] at hready
    cases outcome with
    | error e => exact hready
    | ok done =>
      cases hwrite : ready.write path content with
      | error e =>
        simp only [hwrite]
        exact hready
      | ok written =>
        simp only [hwrite]
        exact hready.trans (changesOnly_update hfile hwrite)

end Disk

/-! ## Journals and settings -/

open Disk

variable {disk : Disk} {files folders : List Path}

namespace Journal

/-- A line changes nothing but the files to which it is added. -/
theorem changesOnly_addLine (line : Bytes) {targets : List Path}
    (h : ∀ target ∈ targets, target ∈ files) :
    ChangesOnly files folders disk (addLine line disk targets) := by
  induction targets generalizing disk with
  | nil => exact ChangesOnly.refl files folders disk
  | cons target targets ih =>
    rw [List.forall_mem_cons] at h
    rw [addLine]
    cases happend : disk.append target line with
    | error e => exact ih h.2
    | ok lengthened => exact (changesOnly_update h.1 happend).trans (ih h.2)

/-- Entries change nothing but the files of the journal. -/
theorem changesOnly_writeAll {journal : Journal} (h : ∀ file ∈ journal.files, file ∈ files)
    (now : Moment) (entries : List Entry) (disk : Disk) :
    ChangesOnly files folders disk (journal.writeAll now entries disk) := by
  induction entries generalizing disk with
  | nil => exact ChangesOnly.refl files folders disk
  | cons entry entries ih =>
    rw [writeAll, List.foldl_cons]
    refine ChangesOnly.trans ?_ (ih _)
    rw [write]
    split
    · exact changesOnly_addLine _ h
    · exact ChangesOnly.refl files folders disk

/-- **A request for a file changes nothing but the file and the folders on its way**, and adds no
other file to the journal, whether or not it succeeds. -/
theorem changesOnly_attach (target : Path) (level : Level) (journal : Journal) (disk : Disk)
    (hfile : target.absolute disk.current ∈ files) (hfolder : target.parent ∈ folders) :
    ChangesOnly files folders disk (attach target level journal disk).2.2 ∧
      ∀ file ∈ (attach target level journal disk).2.1.files,
        file ∈ journal.files ∨ file = target.absolute disk.current := by
  have hready : ChangesOnly files folders disk (disk.ensureFolder target.parent).2 :=
    changesOnly_ensureFolder hfolder disk
  obtain ⟨e, -, heq⟩ | ⟨-, ⟨-, heq⟩ | ⟨-, ⟨e, heq⟩ | ⟨opened, happend, heq⟩⟩⟩ :=
    attach_eq target level journal disk
  · rw [heq]
    exact ⟨hready, fun file => Or.inl⟩
  · rw [heq]
    exact ⟨hready, fun file => Or.inl⟩
  · rw [heq]
    exact ⟨hready, fun file => Or.inl⟩
  · rw [heq]
    refine ⟨hready.trans (changesOnly_update hfile happend), ?_⟩
    intro file hmem
    rwa [List.mem_append, List.mem_singleton] at hmem

end Journal

/-- **Loading settings changes nothing but their file and the folders on its way**, whether or not
it succeeds. -/
theorem Settings.changesOnly_load {path : Path} (hfile : path ∈ files)
    (hfolder : path.parent ∈ folders) (disk : Disk) :
    ChangesOnly files folders disk (Settings.load path disk).2 := by
  have hsaved : ∀ (settings : Settings) (layout : Option Json.Value),
      ChangesOnly files folders disk (settings.saved layout path disk).2 := by
    intro settings layout
    unfold saved
    split
    · exact ChangesOnly.refl files folders disk
    · next document hdocument =>
      have hsave := changesOnly_save hfile hfolder (Utf8.encode document) disk
      split
      · next e left houtcome =>
        rw [houtcome] at hsave
        exact hsave
      · next left houtcome =>
        rw [houtcome] at hsave
        exact hsave
  rw [load]
  split
  · exact ChangesOnly.refl files folders disk
  · exact hsaved default none
  · rw [read]
    split
    · exact ChangesOnly.refl files folders disk
    · split
      · exact ChangesOnly.refl files folders disk
      · split
        · exact ChangesOnly.refl files folders disk
        · exact ChangesOnly.refl files folders disk
        · exact hsaved _ _

end RuleSweep
