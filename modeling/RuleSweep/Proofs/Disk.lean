/-
# Writing a file and looking at it again

A path is followed through folders only.  So what is written into a file, which is no folder,
changes no way: the path leads to the same place as before, and there to what was written.
Before a file is saved, folders are made only where nothing is; so when a file that can be read
cannot be saved, everything is left as it was.
-/
import RuleSweep.Disk
import RuleSweep.Proofs.Text.Cut

namespace RuleSweep

namespace Disk

/-! ## Places -/

/-- What a list of nodes has at a place, by its first entry. -/
theorem lookup_cons (other : Place) (entry : Place × Node) (nodes : List (Place × Node)) :
    (entry :: nodes).lookup other
      = if other = entry.1 then some entry.2 else nodes.lookup other := by
  rw [List.lookup_cons]
  by_cases h : other = entry.1
  · rw [if_pos h, beq_iff_eq.mpr h]
  · rw [if_neg h, beq_eq_false_iff_ne.mpr h]

/-- What is found at a place after something was put at the same or at another place. -/
theorem lookup_setNode (place other : Place) (node : Node) (nodes : List (Place × Node)) :
    (setNode place node nodes).lookup other
      = if other = place then some node else nodes.lookup other := by
  induction nodes with
  | nil => rw [setNode, lookup_cons]
  | cons entry nodes ih =>
    rw [setNode]
    by_cases hentry : entry.1 = place
    · rw [if_pos hentry, lookup_cons, lookup_cons, hentry]
      by_cases h : other = place
      · rw [if_pos h, if_pos h]
      · rw [if_neg h, if_neg h, if_neg h]
    · rw [if_neg hentry, lookup_cons, lookup_cons, ih]
      by_cases h : other = place
      · -- the entry is for another place than the one that was put
        rw [if_neg (by rw [h]; exact Ne.symm hentry), if_pos h, if_pos h]
      · rw [if_neg h, if_neg h]

variable {disk kept : Disk} {path : Path}

/-- What was put at a place below the root is there. -/
theorem node?_put_self {place : Place} (h : place ≠ []) (node : Node) :
    (disk.put place node).node? place = some node := by
  rw [node?, if_neg h, put, lookup_setNode, if_pos rfl]

/-- At every other place is what was there before. -/
theorem node?_put_of_ne {place other : Place} (h : other ≠ place) (node : Node) :
    (disk.put place node).node? other = disk.node? other := by
  unfold node? put
  rw [lookup_setNode, if_neg h]

/-- The root is a folder. -/
theorem ne_nil_of_node?_ne {place : Place} (h : disk.node? place ≠ some .folder) :
    place ≠ [] := by
  rintro rfl
  exact h rfl

/-! ## The way to a place -/

/-- The place to which a name leads from a folder. -/
def step (start : Place) (part : Text) : Place :=
  if part = Path.upward then start.dropLast else start ++ [part]

/-- A name leads on from a folder only, if it is not too long. -/
theorem walk_cons_eq_ok_iff {start goal : Place} {part : Text} {parts : List Text} :
    disk.walk start (part :: parts) = .ok goal ↔ disk.node? start = some .folder ∧
      isLongerThan nameLimit part = false ∧ disk.walk (step start part) parts = .ok goal := by
  rw [walk]
  cases hnode : disk.node? start with
  | none => simp
  | some there =>
    cases there with
    | file content => simp
    | folder =>
      by_cases hlong : isLongerThan nameLimit part
      · simp [hlong]
      · simp [hlong, step]

/-- A path that is not too long leads where its names lead. -/
theorem place_eq_ok_iff {goal : Place} :
    disk.place path = .ok goal ↔ isLongerThan pathLimit path.text = false ∧
      disk.walk (if path.anchor = .here then disk.current else []) path.parts = .ok goal := by
  rw [place]
  by_cases hlong : isLongerThan pathLimit path.text
  · simp [hlong]
  · simp [hlong]

/-- The way to a place leads through the folder in front of the last name. -/
theorem walk_dropLast {start goal : Place} {parts : List Text} {last : Text}
    (h : disk.walk start (parts ++ [last]) = .ok goal) :
    ∃ holder, disk.walk start parts = .ok holder ∧ disk.node? holder = some .folder := by
  induction parts generalizing start with
  | nil =>
    rw [List.nil_append, walk_cons_eq_ok_iff] at h
    exact ⟨start, rfl, h.1⟩
  | cons part parts ih =>
    rw [List.cons_append, walk_cons_eq_ok_iff] at h
    obtain ⟨hfolder, hlong, hwalk⟩ := h
    obtain ⟨holder, hholder, hthere⟩ := ih hwalk
    refine ⟨holder, ?_, hthere⟩
    rw [walk_cons_eq_ok_iff]
    exact ⟨hfolder, hlong, hholder⟩

/-! ## Keeping the folders -/

/-- Every folder of a disk is still there on another one, and paths begin at the same place. -/
structure KeepsFolders (disk kept : Disk) : Prop where
  /-- The current folder is the same. -/
  current : kept.current = disk.current
  /-- Every folder is still there. -/
  folder : ∀ place, disk.node? place = some .folder → kept.node? place = some .folder

/-- Where the folders are kept, names lead where they led. -/
theorem KeepsFolders.walk (h : disk.KeepsFolders kept) {start goal : Place} {parts : List Text}
    (hwalk : disk.walk start parts = .ok goal) : kept.walk start parts = .ok goal := by
  induction parts generalizing start with
  | nil => exact hwalk
  | cons part parts ih =>
    rw [walk_cons_eq_ok_iff] at hwalk ⊢
    obtain ⟨hfolder, hlong, hwalk⟩ := hwalk
    exact ⟨h.folder start hfolder, hlong, ih hwalk⟩

/-- Where the folders are kept, a path leads where it led. -/
theorem KeepsFolders.place (h : disk.KeepsFolders kept) {goal : Place}
    (hplace : disk.place path = .ok goal) : kept.place path = .ok goal := by
  rw [place_eq_ok_iff] at hplace ⊢
  rw [h.current]
  exact ⟨hplace.1, h.walk hplace.2⟩

/-- What is put where no folder is leaves the folders alone. -/
theorem keepsFolders_put {target : Place} (h : disk.node? target ≠ some .folder) (node : Node) :
    disk.KeepsFolders (disk.put target node) where
  current := rfl
  folder := by
    intro place hfolder
    have hother : place ≠ target := by
      rintro rfl
      exact h hfolder
    rw [node?_put_of_ne hother]
    exact hfolder

/-! ## Reading what was written -/

/-- A file can be read exactly if the path leads to it. -/
theorem read_eq_ok_iff {content : Bytes} :
    disk.read path = .ok content ↔ path.hasZero = false ∧
      ∃ place, disk.place path = .ok place ∧ disk.node? place = some (.file content) := by
  rw [read]
  constructor
  · intro h
    split at h
    · exact absurd h (by simp)
    · next hzero =>
      refine ⟨Bool.eq_false_iff.mpr hzero, ?_⟩
      cases hplace : disk.place path with
      | error kind => simp [hplace] at h
      | ok place =>
        refine ⟨place, rfl, ?_⟩
        simp only [hplace] at h
        cases hnode : disk.node? place with
        | none => simp [hnode] at h
        | some there =>
          cases there with
          | folder => simp [hnode] at h
          | file found =>
            simp only [hnode, Except.ok.injEq] at h
            rw [h]
  · rintro ⟨hzero, place, hplace, hnode⟩
    simp [hzero, hplace, hnode]

/-- What is looked at is what can be read. -/
theorem look_of_read {content : Bytes} (h : disk.read path = .ok content) :
    disk.look path = .ok (some (.file content)) := by
  obtain ⟨hzero, place, hplace, hnode⟩ := read_eq_ok_iff.mp h
  simp [look, hzero, hplace, hnode]

/-- A file that is looked at can be read. -/
theorem read_of_look {content : Bytes} (h : disk.look path = .ok (some (.file content))) :
    disk.read path = .ok content := by
  rw [look] at h
  split at h
  · exact absurd h (by simp)
  · next hzero =>
    split at h
    · exact absurd h (by simp)
    · exact absurd h (by simp)
    · next place hplace =>
      rw [Except.ok.injEq] at h
      exact read_eq_ok_iff.mpr ⟨Bool.eq_false_iff.mpr hzero, place, hplace, h⟩

/-- A file that can be read is the file that the path leads to. -/
theorem file?_of_read {content : Bytes} (h : disk.read path = .ok content) :
    disk.file? path = some content := by
  rw [file?, look_of_read h]

/-- What a change of a file does: it puts the changed content where the path leads, at which a
file is or nothing at all. -/
theorem update_eq_ok {change : Bytes → Bytes} {changed : Disk}
    (h : disk.update path change = .ok changed) :
    path.hasZero = false ∧ ∃ place old, disk.place path = .ok place ∧
      disk.node? place ≠ some .folder ∧
      (disk.node? place = some (.file old) ∨ disk.node? place = none ∧ old = []) ∧
      changed = disk.put place (.file (change old)) := by
  rw [update] at h
  split at h
  · exact absurd h (by simp)
  · next hzero =>
    refine ⟨Bool.eq_false_iff.mpr hzero, ?_⟩
    cases hplace : disk.place path with
    | error kind => simp [hplace] at h
    | ok place =>
      simp only [hplace] at h
      cases hnode : disk.node? place with
      | none =>
        simp only [hnode, Except.ok.injEq] at h
        exact ⟨place, [], rfl, by simp [hnode], .inr ⟨hnode, rfl⟩, h.symm⟩
      | some there =>
        cases there with
        | folder => simp [hnode] at h
        | file content =>
          simp only [hnode, Except.ok.injEq] at h
          exact ⟨place, content, rfl, by simp [hnode], .inl hnode, h.symm⟩

/-- A change of a file keeps the folders. -/
theorem keepsFolders_update {change : Bytes → Bytes} {changed : Disk}
    (h : disk.update path change = .ok changed) : disk.KeepsFolders changed := by
  obtain ⟨-, place, old, -, hfolder, -, rfl⟩ := update_eq_ok h
  exact keepsFolders_put hfolder _

/-- A file that a path leads to can be changed. -/
theorem update_of_node? {place : Place} {old : Bytes} (hzero : path.hasZero = false)
    (hplace : disk.place path = .ok place) (hnode : disk.node? place = some (.file old))
    (change : Bytes → Bytes) :
    disk.update path change = .ok (disk.put place (.file (change old))) := by
  simp [update, hzero, hplace, hnode]

/-- **What is written is read back.** -/
theorem read_write {content : Bytes} {written : Disk}
    (h : disk.write path content = .ok written) : written.read path = .ok content := by
  rw [write] at h
  have hkeeps := keepsFolders_update h
  obtain ⟨hzero, place, old, hplace, hfolder, -, rfl⟩ := update_eq_ok h
  rw [read_eq_ok_iff]
  exact ⟨hzero, place, hkeeps.place hplace, node?_put_self (ne_nil_of_node?_ne hfolder) _⟩

/-- A file that can be read can be written. -/
theorem write_of_read {old : Bytes} (h : disk.read path = .ok old) (content : Bytes) :
    ∃ written, disk.write path content = .ok written := by
  obtain ⟨hzero, place, hplace, hnode⟩ := read_eq_ok_iff.mp h
  exact ⟨_, update_of_node? hzero hplace hnode fun _ => content⟩

/-- Where something can be written, anything else can be. -/
theorem write_of_write {other : Bytes} {made : Disk} (h : disk.write path other = .ok made)
    (content : Bytes) : ∃ written, disk.write path content = .ok written := by
  obtain ⟨hzero, place, old, hplace, -, hnode | ⟨hnode, -⟩, -⟩ := update_eq_ok h
  · exact ⟨_, update_of_node? hzero hplace hnode fun _ => content⟩
  · exact ⟨disk.put place (.file content), by simp [write, update, hzero, hplace, hnode]⟩

/-! ## Saving -/

/-- Where something can be saved, anything else can be. -/
theorem save_of_save {other : Bytes} {made : Disk} (h : disk.save path other = (.ok (), made))
    (content : Bytes) : ∃ saved, disk.save path content = (.ok (), saved) := by
  rw [save] at h
  split at h
  · exact absurd h (by simp)
  · next ready hready =>
    split at h
    · exact absurd h (by simp)
    · next written hwritten =>
      obtain ⟨saved, hsaved⟩ := write_of_write hwritten content
      exact ⟨saved, by rw [save, hready]; simp only [hsaved]⟩

/-- What was saved is read back. -/
theorem read_save {content : Bytes} {saved : Disk}
    (h : disk.save path content = (.ok (), saved)) : saved.read path = .ok content := by
  rw [save] at h
  split at h
  · exact absurd h (by simp)
  · next ready hready =>
    split at h
    · exact absurd h (by simp)
    · next written hwritten =>
      rw [Prod.mk.injEq] at h
      rw [← h.2]
      exact read_write hwritten

/-- The path to the folder in front of the last name is not too long if the path is not. -/
theorem isLongerThan_front {anchor : Anchor} {front : List Text} {last : Text}
    (h : isLongerThan pathLimit (Path.text ⟨anchor, front ++ [last]⟩) = false) :
    isLongerThan pathLimit (Path.text ⟨anchor, front⟩) = false := by
  by_cases hdot : anchor = .here ∧ front = []
  · rw [Path.text, if_pos hdot]
    decide
  · have hwhole : Path.text ⟨anchor, front⟩ <+: Path.text ⟨anchor, front ++ [last]⟩ := by
      rw [Path.text, Path.text, if_neg hdot, if_neg (by simp), List.prefix_append_right_inj]
      exact Text.joinWith_isPrefix ['/'] last front
    obtain ⟨more, hmore⟩ := hwhole
    rw [isLongerThan, decide_eq_false_iff_not, ← hmore, Utf8.encode, List.flatMap_append,
      List.length_append] at h
    rw [isLongerThan, decide_eq_false_iff_not, Utf8.encode]
    omega

/-- In front of a file there is something: the folder that holds it, unless the file is taken
for the current folder. -/
theorem place_parent_of_read {content : Bytes} (h : disk.read path = .ok content) :
    path.parent.hasZero = false ∧
      ∃ place there, disk.place path.parent = .ok place ∧ disk.node? place = some there := by
  obtain ⟨hzero, place, hplace, hnode⟩ := read_eq_ok_iff.mp h
  obtain ⟨anchor, parts⟩ := path
  rcases List.eq_nil_or_concat parts with rfl | ⟨front, last, rfl⟩
  · -- a path without names is its own parent
    exact ⟨hzero, place, .file content, hplace, hnode⟩
  · rw [List.concat_eq_append] at hzero hplace ⊢
    have hparent : Path.parent ⟨anchor, front ++ [last]⟩ = ⟨anchor, front⟩ := by
      rw [Path.parent, List.dropLast_concat]
    rw [hparent]
    constructor
    · rw [Path.hasZero, List.any_append, Bool.or_eq_false_iff] at hzero
      exact hzero.1
    · obtain ⟨hlong, hwalk⟩ := place_eq_ok_iff.mp hplace
      obtain ⟨holder, hholder, hfolder⟩ := walk_dropLast hwalk
      refine ⟨holder, .folder, ?_, hfolder⟩
      rw [place_eq_ok_iff]
      exact ⟨isLongerThan_front hlong, hholder⟩

/-- Nothing is made where there is something already. -/
theorem ensureFolder_of_node? {place : Place} {there : Node} (hzero : path.hasZero = false)
    (hplace : disk.place path = .ok place) (hnode : disk.node? place = some there) :
    (disk.ensureFolder path).2 = disk := by
  have hmake : disk.makeFolder path = .error .taken := by
    simp [makeFolder, hplace, hnode]
  have hback : pathBack path.anchor path.parts.reverse = path := by
    rw [pathBack, List.reverse_reverse]
  rw [ensureFolder, hzero, if_neg Bool.false_ne_true]
  cases hparts : path.parts.reverse with
  | nil =>
    rw [hparts] at hback
    unfold ensureBack
    rw [hback, ensureOne, hmake]
    by_cases hfolder : disk.isFolder path
    · simp [hfolder]
    · simp [hfolder]
  | cons part back =>
    rw [hparts] at hback
    unfold ensureBack
    simp only [hback, hmake]
    by_cases hfolder : disk.isFolder path
    · simp [hfolder]
    · simp [hfolder]

/-- **When a file that can be read cannot be saved, nothing is changed.** -/
theorem save_of_read {old content : Bytes} {e : DiskFault} {left : Disk}
    (h : disk.read path = .ok old) (hsave : disk.save path content = (.error e, left)) :
    left = disk := by
  obtain ⟨hzero, place, there, hplace, hnode⟩ := place_parent_of_read h
  have hready := ensureFolder_of_node? hzero hplace hnode
  rw [save] at hsave
  split at hsave
  · next fault ready hfolder =>
    rw [hfolder] at hready
    rw [Prod.mk.injEq] at hsave
    rw [← hsave.2]
    exact hready
  · next ready hfolder =>
    rw [hfolder] at hready
    rw [show ready = disk from hready] at hsave
    obtain ⟨written, hwritten⟩ := write_of_read h content
    simp [hwritten] at hsave

end Disk

end RuleSweep
