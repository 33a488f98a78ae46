/-
# Runs of a journal

A journal is given files and levels, and is told entries, in any order.  Every file is there from
the time it was added, and no file is there twice; a file is told from another one by its path
from the root without any `..`.  An entry that is grave enough is added at the end of every file,
and nothing else on the disk is changed.

`attach_eq` lists what a request for a file can do to any journal, and `node?_addLine` says what a
line does to the whole disk.  The statements about runs go by induction on the run from its end,
with `Sound` as the invariant: `journal_of_run`.

Two paths that differ in the number of slashes at their beginning are two files of the journal,
but one file of the disk, which then gets every line twice: `node?_run_two_slashes`.
-/
import Mathlib.Data.List.Induction
import Mathlib.Data.List.Nodup
import RuleSweep.Journal
import RuleSweep.Proofs.Disk.Growth

namespace RuleSweep

/-- What is at a place once bytes were added at the end of a file there. -/
def Node.lengthen (more : Bytes) : Node → Node
  | .file content => .file (content ++ more)
  | .folder => .folder

namespace Path

/-- Two paths are the same if they begin at the same place and have the same parts. -/
theorem eq_iff {path other : Path} :
    path = other ↔ path.anchor = other.anchor ∧ path.parts = other.parts := by
  cases path
  cases other
  simp

/-- Following parts from a place without `..` leads to a place without `..`. -/
theorem upward_notMem_follow {place parts : List Text} (h : upward ∉ place) :
    upward ∉ follow place parts := by
  induction parts generalizing place with
  | nil => exact h
  | cons part parts ih =>
    rw [follow]
    apply ih
    split
    · exact fun hmem => h (List.mem_of_mem_dropLast hmem)
    · next hpart =>
      rw [List.mem_append, List.mem_singleton, not_or]
      exact ⟨h, Ne.symm hpart⟩

/-- A path from the root does not begin at the current folder. -/
theorem anchor_absolute (place : List Text) (path : Path) :
    (path.absolute place).anchor ≠ .here := by
  unfold absolute
  split
  · simp
  · next hanchor => exact hanchor

/-- A path from the root has no `..`, if the current folder has none. -/
theorem upward_notMem_absolute {place : List Text} (h : upward ∉ place) (path : Path) :
    upward ∉ (path.absolute place).parts := by
  unfold absolute
  split
  · exact upward_notMem_follow h
  · exact upward_notMem_follow List.not_mem_nil

end Path

namespace Journal

/-! ## Files that are there -/

/-- A file is there, at the place that its path from the root names. -/
structure IsThere (disk : Disk) (file : Path) : Prop where
  /-- The path begins at the root. -/
  anchor : file.anchor ≠ .here
  /-- It has no `..`. -/
  upward : Path.upward ∉ file.parts
  /-- It holds no zero character. -/
  zero : file.hasZero = false
  /-- It can be followed. -/
  place : disk.place file = .ok file.parts
  /-- It leads to a file. -/
  content : ∃ content, disk.node? file.parts = some (.file content)

variable {disk kept : Disk} {file : Path}

/-- A file is still there where the folders and the file are. -/
theorem IsThere.keep (h : IsThere disk file) (hkept : disk.KeepsFolders kept)
    (hfile : ∃ content, kept.node? file.parts = some (.file content)) : IsThere kept file where
  anchor := h.anchor
  upward := h.upward
  zero := h.zero
  place := hkept.place h.place
  content := hfile

/-- A file is still there on a disk that has grown. -/
theorem IsThere.grow (h : IsThere disk file) (hgrows : disk.GrowsTo kept) : IsThere kept file := by
  obtain ⟨content, hcontent⟩ := h.content
  exact h.keep hgrows.keepsFolders ⟨content, hgrows.node _ _ hcontent⟩

/-- A file that could be opened at its end is there. -/
theorem isThere_of_append {opened : Disk} (hanchor : file.anchor ≠ .here)
    (hupward : Path.upward ∉ file.parts) (h : disk.append file [] = .ok opened) :
    IsThere opened file := by
  rw [Disk.append] at h
  have hkeeps := Disk.keepsFolders_update h
  obtain ⟨hzero, place, old, hplace, hfolder, -, rfl⟩ := Disk.update_eq_ok h
  have hparts : place = file.parts := by
    have hwalk := (Disk.place_eq_ok_iff.mp hplace).2
    rw [if_neg hanchor] at hwalk
    exact Disk.eq_append_of_walk hupward hwalk
  subst hparts
  exact {
    anchor := hanchor
    upward := hupward
    zero := hzero
    place := hkeeps.place hplace
    content := ⟨_, Disk.node?_put_self (Disk.ne_nil_of_node?_ne hfolder) _⟩ }

/-! ## Setting up -/

variable {journal : Journal}

/-- **What a request for a file can do.**  If its folder cannot be made, the journal stays as it
is.  Otherwise the level is set, and the file is added if it is not there already and can be
opened. -/
theorem attach_eq (target : Path) (level : Level) (journal : Journal) (disk : Disk) :
    let ready := (disk.ensureFolder target.parent).2
    let file := target.absolute disk.current
    (∃ e, (disk.ensureFolder target.parent).1 = .error e ∧
      attach target level journal disk = (.error e, journal, ready)) ∨
    (disk.ensureFolder target.parent).1 = .ok () ∧
      (file ∈ journal.files ∧
          attach target level journal disk = (.ok (), ⟨level, journal.files⟩, ready) ∨
        file ∉ journal.files ∧
          ((∃ e, attach target level journal disk = (.error e, ⟨level, journal.files⟩, ready)) ∨
          ∃ opened, ready.append file [] = .ok opened ∧
            attach target level journal disk
              = (.ok (), ⟨level, journal.files ++ [file]⟩, opened))) := by
  intro ready file
  have hcurrent : ready.current = disk.current :=
    (Disk.growsTo_ensureFolder disk target.parent).current
  cases hready : disk.ensureFolder target.parent with
  | mk outcome made =>
    have hmade : ready = made := congrArg Prod.snd hready
    rw [hmade] at hcurrent ⊢
    cases outcome with
    | error e =>
      left
      exact ⟨e, rfl, by simp [attach, hready]⟩
    | ok done =>
      right
      refine ⟨rfl, ?_⟩
      by_cases hmem : file ∈ journal.files
      · left
        refine ⟨hmem, ?_⟩
        simp only [attach, hready, hcurrent]
        exact if_pos hmem
      · right
        refine ⟨hmem, ?_⟩
        have hnew : target.absolute disk.current ∉ journal.files := hmem
        cases happend : made.append (target.absolute disk.current) [] with
        | error e =>
          left
          exact ⟨e, by simp only [attach, hready, hcurrent, if_neg hnew, happend]⟩
        | ok opened =>
          right
          refine ⟨opened, rfl, ?_⟩
          simp only [attach, hready, hcurrent, if_neg hnew, happend]
          rfl

/-! ## Writing a line -/

/-- How many files of a journal are at a place. -/
def timesAt (journal : Journal) (place : Place) : Nat :=
  journal.files.countP (·.parts = place)

/-- A line that is added to a file that is there stands at its end, and nothing else changes. -/
theorem append_of_isThere (h : IsThere disk file) (line : Bytes) :
    ∃ lengthened, disk.append file line = .ok lengthened ∧ disk.KeepsFolders lengthened ∧
      ∀ place, lengthened.node? place
        = (disk.node? place).map (Node.lengthen (if file.parts = place then line else [])) := by
  obtain ⟨content, hcontent⟩ := h.content
  have hfolder : disk.node? file.parts ≠ some .folder := by simp [hcontent]
  refine ⟨_, Disk.update_of_node? h.zero h.place hcontent _,
    Disk.keepsFolders_put hfolder _, ?_⟩
  intro place
  by_cases hplace : file.parts = place
  · rw [← hplace, Disk.node?_put_self (Disk.ne_nil_of_node?_ne hfolder), if_pos rfl, hcontent]
    rfl
  · rw [Disk.node?_put_of_ne (Ne.symm hplace), if_neg hplace]
    cases disk.node? place with
    | none => rfl
    | some there => cases there <;> simp [Node.lengthen]

/-- Bytes that are added twice are added at once. -/
theorem lengthen_lengthen (first second : Bytes) (node : Node) :
    (node.lengthen first).lengthen second = node.lengthen (first ++ second) := by
  cases node with
  | file content => simp [Node.lengthen]
  | folder => rfl

/-- **What a line does to the disk.**  It is added at the end of a file as often as the file is
listed, and nothing else changes. -/
theorem node?_addLine {files : List Path} (h : ∀ file ∈ files, IsThere disk file) (line : Bytes) :
    disk.KeepsFolders (addLine line disk files) ∧
      ∀ place, (addLine line disk files).node? place
        = (disk.node? place).map
            (Node.lengthen (List.replicate (files.countP (·.parts = place)) line).flatten) := by
  induction files generalizing disk with
  | nil =>
    refine ⟨(Disk.GrowsTo.refl disk).keepsFolders, fun place => ?_⟩
    rw [addLine]
    cases disk.node? place with
    | none => rfl
    | some there => cases there <;> simp [Node.lengthen]
  | cons file files ih =>
    rw [List.forall_mem_cons] at h
    obtain ⟨lengthened, happend, hkeeps, hnode⟩ := append_of_isThere h.1 line
    have hthere : ∀ other ∈ files, IsThere lengthened other := by
      intro other hother
      obtain ⟨content, hcontent⟩ := (h.2 other hother).content
      apply (h.2 other hother).keep hkeeps
      rw [hnode, hcontent]
      exact ⟨_, rfl⟩
    obtain ⟨hkeeps', hnode'⟩ := ih hthere
    rw [addLine, happend]
    refine ⟨⟨hkeeps'.current.trans hkeeps.current,
      fun place hfolder => hkeeps'.folder place (hkeeps.folder place hfolder)⟩, ?_⟩
    intro place
    show (addLine line lengthened files).node? place = _
    rw [hnode', hnode, Option.map_map]
    congr 1
    funext node
    rw [Function.comp_apply, lengthen_lengthen, List.countP_cons]
    by_cases hplace : file.parts = place
    · simp [hplace, List.replicate_succ]
    · simp [hplace]

/-! ## Events and runs -/

/-- What can be asked of a journal. -/
inductive Event where
  /-- To set its level and add a file. -/
  | attach (target : Path) (level : Level)
  /-- To write an entry down. -/
  | write (now : Moment) (entry : Entry)

/-- A journal, and the disk with its files. -/
structure State where
  /-- The journal. -/
  journal : Journal
  /-- The disk. -/
  disk : Disk

namespace State

/-- What an event makes of a journal and its disk. -/
def step (state : State) : Event → State
  | .attach target level =>
    let (_, journal, disk) := attach target level state.journal state.disk
    ⟨journal, disk⟩
  | .write now entry => ⟨state.journal, state.journal.write now entry state.disk⟩

/-- A file can be added, or is there already. -/
def Accepts (state : State) (target : Path) (level : Level) : Prop :=
  (attach target level state.journal state.disk).1 = .ok ()

/-- The level that an event sets, if it comes to that: the folder of the file has to be there. -/
def sets? (state : State) : Event → Option Level
  | .attach target level =>
    match (state.disk.ensureFolder target.parent).1 with
    | .ok () => some level
    | .error _ => none
  | .write _ _ => none

/-- Every file of a journal is there, none of them twice, and the current folder is the place that
its names lead to. -/
structure Sound (state : State) : Prop where
  /-- The current folder has no `..`. -/
  current : Path.upward ∉ state.disk.current
  /-- No file is there twice. -/
  nodup : state.journal.files.Nodup
  /-- Every file is there. -/
  there : ∀ file ∈ state.journal.files, IsThere state.disk file

variable {state : State} {target : Path} {level : Level}

/-! ## One event -/

/-- A request for a file takes nothing away from the disk. -/
theorem growsTo_step_attach (state : State) (target : Path) (level : Level) :
    state.disk.GrowsTo (state.step (.attach target level)).disk := by
  have hready := Disk.growsTo_ensureFolder state.disk target.parent
  obtain ⟨e, -, heq⟩ | ⟨-, ⟨-, heq⟩ | ⟨-, ⟨e, heq⟩ | ⟨opened, happend, heq⟩⟩⟩ :=
    attach_eq target level state.journal state.disk
  · rw [step, heq]
    exact hready
  · rw [step, heq]
    exact hready
  · rw [step, heq]
    exact hready
  · rw [step, heq]
    exact hready.trans (Disk.growsTo_append_nil happend)

/-- A journal has the level that an event sets, and otherwise the one it had. -/
theorem level_step (state : State) (event : Event) :
    (state.step event).journal.level = (state.sets? event).getD state.journal.level := by
  cases event with
  | write now entry => rfl
  | attach target level =>
    obtain ⟨e, hready, heq⟩ | ⟨hready, ⟨-, heq⟩ | ⟨-, ⟨e, heq⟩ | ⟨opened, -, heq⟩⟩⟩ :=
      attach_eq target level state.journal state.disk
    · simp [step, heq, sets?, hready]
    · simp [step, heq, sets?, hready]
    · simp [step, heq, sets?, hready]
    · simp [step, heq, sets?, hready]

/-- The files behind a request: those from before, and the file itself if it was accepted. -/
theorem mem_files_step_attach {file : Path} :
    file ∈ (state.step (.attach target level)).journal.files ↔
      file ∈ state.journal.files ∨
        state.Accepts target level ∧ target.absolute state.disk.current = file := by
  obtain ⟨e, -, heq⟩ | ⟨-, ⟨hmem, heq⟩ | ⟨-, ⟨e, heq⟩ | ⟨opened, -, heq⟩⟩⟩ :=
    attach_eq target level state.journal state.disk
  · simp [step, Accepts, heq]
  · -- the file is there already
    simp only [step, Accepts, heq, true_and]
    constructor
    · exact Or.inl
    · rintro (hfile | rfl)
      · exact hfile
      · exact hmem
  · simp [step, Accepts, heq]
  · simp [step, Accepts, heq, eq_comm]

/-- A request that fails adds no file. -/
theorem files_step_of_not_accepts (h : ¬ state.Accepts target level) :
    (state.step (.attach target level)).journal.files = state.journal.files := by
  obtain ⟨e, -, heq⟩ | ⟨-, ⟨-, heq⟩ | ⟨-, ⟨e, heq⟩ | ⟨opened, -, heq⟩⟩⟩ :=
    attach_eq target level state.journal state.disk
  · rw [step, heq]
  · rw [step, heq]
  · rw [step, heq]
  · exact absurd (by rw [Accepts, heq]) h

namespace Sound

/-- What an entry does to the disk of a sound state: its line is added at the end of a file as
often as the journal has the file, if the entry is grave enough, and nothing else changes. -/
theorem node?_step_write (h : state.Sound) (now : Moment) (entry : Entry) :
    state.disk.KeepsFolders (state.step (.write now entry)).disk ∧
      ∀ place, (state.step (.write now entry)).disk.node? place
        = if state.journal.level.admits entry.level then
            (state.disk.node? place).map (Node.lengthen
              (List.replicate (state.journal.timesAt place) (line now entry)).flatten)
          else state.disk.node? place := by
  rw [step, write]
  by_cases hadmits : state.journal.level.admits entry.level
  · rw [if_pos hadmits]
    simp only [if_pos hadmits]
    exact node?_addLine h.there (line now entry)
  · rw [if_neg hadmits]
    simp only [if_neg hadmits]
    exact ⟨(Disk.GrowsTo.refl state.disk).keepsFolders, fun place => trivial⟩

/-- A request leaves the files of a sound state as they are, or adds one that is new and is
there. -/
theorem files_step_attach (h : state.Sound) (target : Path) (level : Level) :
    let file := target.absolute state.disk.current
    (state.step (.attach target level)).journal.files = state.journal.files ∨
      file ∉ state.journal.files ∧
        (state.step (.attach target level)).journal.files = state.journal.files ++ [file] ∧
        IsThere (state.step (.attach target level)).disk file := by
  intro file
  obtain ⟨e, -, heq⟩ | ⟨-, ⟨-, heq⟩ | ⟨hnew, ⟨e, heq⟩ | ⟨opened, happend, heq⟩⟩⟩ :=
    attach_eq target level state.journal state.disk
  · left
    rw [State.step, heq]
  · left
    rw [State.step, heq]
  · left
    rw [State.step, heq]
  · right
    rw [State.step, heq]
    exact ⟨hnew, rfl, isThere_of_append (Path.anchor_absolute state.disk.current target)
      (Path.upward_notMem_absolute h.current target) happend⟩

/-- **An event leaves a sound state sound.** -/
theorem step (h : state.Sound) (event : Event) : (state.step event).Sound := by
  cases event with
  | write now entry =>
    obtain ⟨hkeeps, hnode⟩ := h.node?_step_write now entry
    refine ⟨?_, h.nodup, ?_⟩
    · rw [hkeeps.current]
      exact h.current
    · intro file hfile
      have hthere := h.there file hfile
      obtain ⟨content, hcontent⟩ := hthere.content
      apply hthere.keep hkeeps
      rw [hnode, hcontent]
      split
      · exact ⟨_, rfl⟩
      · exact ⟨content, rfl⟩
  | attach target level =>
    have hgrows := growsTo_step_attach state target level
    have hcurrent : Path.upward ∉ (state.step (.attach target level)).disk.current := by
      rw [hgrows.current]
      exact h.current
    have hold : ∀ file ∈ state.journal.files,
        IsThere (state.step (.attach target level)).disk file :=
      fun file hfile => (h.there file hfile).grow hgrows
    rcases h.files_step_attach target level with hfiles | ⟨hnew, hfiles, hthere⟩
    · exact ⟨hcurrent, hfiles ▸ h.nodup, hfiles ▸ hold⟩
    · refine ⟨hcurrent, ?_, ?_⟩
      · rw [hfiles, ← List.concat_eq_append]
        exact h.nodup.concat hnew
      · rw [hfiles, List.forall_mem_append, List.forall_mem_singleton]
        exact ⟨hold, hthere⟩

end Sound

end State

/-! ## Runs -/

/-- What events make of the journal that no one has set up. -/
def run (disk : Disk) (events : List Event) : State :=
  events.foldl State.step ⟨unset, disk⟩

/-- An event that is like this happens in the run of some events. -/
def Happens (disk : Disk) (events : List Event) (like : State → Event → Prop) : Prop :=
  ∃ before event after, events = before ++ event :: after ∧ like (run disk before) event

/-- Of some events, the last one that came to set a level set this one. -/
def LastSet (disk : Disk) (events : List Event) (level : Level) : Prop :=
  ∃ before event after, events = before ++ event :: after ∧
    (run disk before).sets? event = some level ∧
    ∀ between later rest, after = between ++ later :: rest →
      (run disk (before ++ event :: between)).sets? later = none

section Runs

variable {events : List Event} {event : Event}

/-- An event at the end of a run meets what the run has left. -/
theorem run_append_singleton (disk : Disk) (events : List Event) (event : Event) :
    run disk (events ++ [event]) = (run disk events).step event := by
  rw [run, List.foldl_append]
  rfl

/-- Among no events nothing happens. -/
theorem not_happens_nil {like : State → Event → Prop} : ¬ Happens disk [] like := by
  rintro ⟨before, event, after, heq, -⟩
  simp at heq

/-- What happens in a run happens at its end or in front of it. -/
theorem happens_append_singleton_iff {like : State → Event → Prop} :
    Happens disk (events ++ [event]) like ↔
      Happens disk events like ∨ like (run disk events) event := by
  constructor
  · rintro ⟨before, found, after, heq, hlike⟩
    obtain rfl | ⟨earlier, last, rfl⟩ := List.eq_nil_or_concat after
    · obtain ⟨rfl, rfl⟩ := List.append_singleton_inj.mp heq
      exact Or.inr hlike
    · rw [List.concat_eq_append, ← List.cons_append, ← List.append_assoc] at heq
      obtain ⟨rfl, rfl⟩ := List.append_singleton_inj.mp heq
      exact Or.inl ⟨before, found, earlier, rfl, hlike⟩
  · rintro (⟨before, found, after, rfl, hlike⟩ | hlike)
    · exact ⟨before, found, after ++ [event], by simp, hlike⟩
    · exact ⟨events, event, [], rfl, hlike⟩

/-- Among no events none was the last to set a level. -/
theorem not_lastSet_nil {level : Level} : ¬ LastSet disk [] level := by
  rintro ⟨before, event, after, heq, -⟩
  simp at heq

/-- The last event to set a level is the one at the end, or else one in front of it. -/
theorem lastSet_append_singleton_iff {level : Level} :
    LastSet disk (events ++ [event]) level ↔
      (run disk events).sets? event = some level ∨
        (run disk events).sets? event = none ∧ LastSet disk events level := by
  constructor
  · rintro ⟨before, found, after, heq, hsets, hlater⟩
    obtain rfl | ⟨earlier, last, rfl⟩ := List.eq_nil_or_concat after
    · obtain ⟨rfl, rfl⟩ := List.append_singleton_inj.mp heq
      exact Or.inl hsets
    · rw [List.concat_eq_append] at heq hlater
      rw [← List.cons_append, ← List.append_assoc] at heq
      obtain ⟨rfl, rfl⟩ := List.append_singleton_inj.mp heq
      refine Or.inr ⟨hlater earlier event [] rfl, before, found, earlier, rfl, hsets, ?_⟩
      rintro between later rest rfl
      exact hlater between later (rest ++ [event]) (by simp)
  · rintro (hsets | ⟨hnone, before, found, after, rfl, hsets, hlater⟩)
    · refine ⟨events, event, [], rfl, hsets, ?_⟩
      intro between later rest heq
      simp at heq
    · refine ⟨before, found, after ++ [event], by simp, hsets, ?_⟩
      intro between later rest heq
      obtain rfl | ⟨earlier, last, rfl⟩ := List.eq_nil_or_concat rest
      · obtain ⟨rfl, rfl⟩ := List.append_singleton_inj.mp heq
        exact hnone
      · rw [List.concat_eq_append, ← List.cons_append, ← List.append_assoc] at heq
        obtain ⟨rfl, rfl⟩ := List.append_singleton_inj.mp heq
        exact hlater between later earlier rfl

/-- No event moves the current folder. -/
theorem current_step (state : State) (event : Event) (h : state.Sound) :
    (state.step event).disk.current = state.disk.current := by
  cases event with
  | attach target level => exact (state.growsTo_step_attach target level).current
  | write now entry => exact (h.node?_step_write now entry).1.current

/-- A file was asked for and accepted in the run of some events. -/
def Attached (disk : Disk) (events : List Event) (target : Path) : Prop :=
  Happens disk events fun state event =>
    ∃ level, event = .attach target level ∧ state.Accepts target level

/-- A file was accepted at the end of a run, or in front of it. -/
theorem attached_append_singleton_iff {target : Path} :
    Attached disk (events ++ [event]) target ↔
      Attached disk events target ∨
        ∃ level, event = .attach target level ∧ (run disk events).Accepts target level :=
  happens_append_singleton_iff

/-- **The level of a journal** is the one that was set last, and that of a journal that no one has
set up if none was. -/
theorem level_run_iff {level : Level} :
    (run disk events).journal.level = level ↔
      LastSet disk events level ∨
        level = .warning ∧ ¬ Happens disk events fun state event => state.sets? event ≠ none := by
  induction events using List.reverseRecOn with
  | nil =>
    simp only [not_lastSet_nil, not_happens_nil, false_or, not_false_eq_true, and_true]
    exact eq_comm
  | append_singleton events event ih =>
    rw [run_append_singleton, State.level_step, lastSet_append_singleton_iff,
      happens_append_singleton_iff, not_or]
    cases hsets : (run disk events).sets? event with
    | none => simpa using ih
    | some set => simp

variable (events) (hcurrent : Path.upward ∉ disk.current)
include hcurrent

/-- Behind every run the state is sound, and the current folder is where it was. -/
theorem sound_run :
    (run disk events).Sound ∧ (run disk events).disk.current = disk.current := by
  induction events using List.reverseRecOn with
  | nil =>
    refine ⟨⟨hcurrent, List.nodup_nil, ?_⟩, rfl⟩
    exact fun file hfile => absurd hfile List.not_mem_nil
  | append_singleton events event ih =>
    rw [run_append_singleton]
    exact ⟨ih.1.step event, (current_step _ event ih.1).trans ih.2⟩

/-- **The files of a journal** are those that were asked for and accepted, by their paths from the
root. -/
theorem mem_files_run_iff {file : Path} :
    file ∈ (run disk events).journal.files ↔
      ∃ target, Attached disk events target ∧ target.absolute disk.current = file := by
  induction events using List.reverseRecOn with
  | nil =>
    constructor
    · exact fun hfile => absurd hfile List.not_mem_nil
    · rintro ⟨target, hattached, -⟩
      exact absurd hattached not_happens_nil
  | append_singleton events event ih =>
    rw [run_append_singleton]
    simp only [attached_append_singleton_iff]
    cases event with
    | write now entry => simpa [State.step] using ih
    | attach target level =>
      rw [State.mem_files_step_attach, ih, (sound_run events hcurrent).2]
      constructor
      · rintro (⟨other, hother, hfile⟩ | ⟨haccepts, hfile⟩)
        · exact ⟨other, Or.inl hother, hfile⟩
        · exact ⟨target, Or.inr ⟨level, rfl, haccepts⟩, hfile⟩
      · rintro ⟨other, hother | ⟨set, heq, haccepts⟩, hfile⟩
        · exact Or.inl ⟨other, hother, hfile⟩
        · obtain ⟨rfl, rfl⟩ := Event.attach.inj heq
          exact Or.inr ⟨haccepts, hfile⟩

/-- If no path with two slashes at its beginning was accepted, no two files of the journal are at
one place. -/
theorem timesAt_run (hslashes : ∀ target, Attached disk events target →
      target.anchor ≠ .doubleRoot) :
    ∀ file ∈ (run disk events).journal.files,
      (run disk events).journal.timesAt file.parts = 1 := by
  have hroot : ∀ file ∈ (run disk events).journal.files, file.anchor = .root := by
    intro file hfile
    obtain ⟨target, hattached, rfl⟩ := (mem_files_run_iff events hcurrent).mp hfile
    have hanchor := hslashes target hattached
    unfold Path.absolute
    split
    · rfl
    · next hhere =>
      cases htarget : target.anchor with
      | here => exact absurd htarget hhere
      | root => rfl
      | doubleRoot => exact absurd htarget hanchor
  intro file hfile
  have hcount : (run disk events).journal.timesAt file.parts
      = (run disk events).journal.files.count file := by
    rw [timesAt, List.count]
    apply List.countP_congr
    intro other hother
    rw [decide_eq_true_eq, beq_iff_eq]
    constructor
    · intro hparts
      rw [Path.eq_iff, hroot other hother, hroot file hfile]
      exact ⟨rfl, hparts⟩
    · rintro rfl
      rfl
  rw [hcount]
  exact List.count_eq_one_of_mem (sound_run events hcurrent).1.nodup hfile

end Runs

/-- **Runs of a journal.**  Whatever was asked of a journal that no one had set up:

* it has every file once, the files are those that were asked for and accepted, by their paths
  from the root without `..`, and each of them is there;
* a request that fails adds no file, and no request changes anything that is on the disk;
* its level is the one that was set last;
* an entry that the level admits is added as a line at the end of every file, as often as the
  journal has a file at this place, and any other entry changes nothing; no entry changes anything
  else;
* a journal has only one file at a place, unless a path was accepted that is written with two
  slashes at its beginning. -/
theorem journal_of_run (events : List Event) (hcurrent : Path.upward ∉ disk.current) :
    (run disk events).journal.files.Nodup ∧
    (∀ file, file ∈ (run disk events).journal.files ↔
      ∃ target, Attached disk events target ∧ target.absolute disk.current = file) ∧
    (∀ file ∈ (run disk events).journal.files, file.anchor ≠ .here ∧ Path.upward ∉ file.parts ∧
      ∃ content, (run disk events).disk.node? file.parts = some (.file content)) ∧
    (∀ target level, ¬ (run disk events).Accepts target level →
      ((run disk events).step (.attach target level)).journal.files
        = (run disk events).journal.files) ∧
    (∀ target level place there, (run disk events).disk.node? place = some there →
      ((run disk events).step (.attach target level)).disk.node? place = some there) ∧
    (∀ level, (run disk events).journal.level = level ↔
      LastSet disk events level ∨
        level = .warning ∧ ¬ Happens disk events fun state event => state.sets? event ≠ none) ∧
    (∀ now entry place, ((run disk events).step (.write now entry)).disk.node? place
      = if (run disk events).journal.level.admits entry.level then
          ((run disk events).disk.node? place).map (Node.lengthen
            (List.replicate ((run disk events).journal.timesAt place) (line now entry)).flatten)
        else (run disk events).disk.node? place) ∧
    ((∀ target, Attached disk events target → target.anchor ≠ .doubleRoot) →
      ∀ file ∈ (run disk events).journal.files,
        (run disk events).journal.timesAt file.parts = 1) := by
  obtain ⟨hsound, -⟩ := sound_run events hcurrent
  refine ⟨hsound.nodup, fun file => mem_files_run_iff events hcurrent, ?_, ?_, ?_, ?_, ?_, ?_⟩
  · intro file hfile
    have hthere := hsound.there file hfile
    exact ⟨hthere.anchor, hthere.upward, hthere.content⟩
  · exact fun target level hfails => State.files_step_of_not_accepts hfails
  · exact fun target level => (State.growsTo_step_attach _ target level).node
  · exact fun level => level_run_iff
  · exact fun now entry => (hsound.node?_step_write now entry).2
  · exact timesAt_run events hcurrent

/-- Two spellings of one file, a file that cannot be made because its folder is a file, and an
entry below the level that was set last. -/
theorem journal_of_run_two_spellings :
    let disk : Disk := ⟨["home".toList], [(["home".toList], .folder)]⟩
    let file : Path := ⟨.root, ["home".toList, "a.log".toList]⟩
    let now : Moment := ⟨2024, 1, 2, 3, 4, 5⟩
    let fault : Entry := ⟨.error, "tms".toList, "no".toList⟩
    let events : List Event := [.attach (Path.ofText "sub/../a.log".toList) .info,
      .attach (Path.ofText "/home/./a.log".toList) .warning,
      .attach (Path.ofText "a.log/b.log".toList) .debug,
      .write now ⟨.info, "tms".toList, "yes".toList⟩]
    let state := run disk events
    Path.upward ∉ disk.current ∧ state.journal = ⟨.warning, [file]⟩ ∧
      state.disk.node? file.parts = some (.file []) ∧
      (state.step (.write now fault)).disk.node? file.parts = some (.file (line now fault)) := by
  intro disk file now fault events state
  have hcurrent : Path.upward ∉ disk.current := by decide
  have hjournal : state.journal = ⟨.warning, [file]⟩ := by decide +kernel
  have hnode : state.disk.node? file.parts = some (.file []) := by decide +kernel
  obtain ⟨-, -, -, -, -, -, hwrite, -⟩ := journal_of_run events hcurrent
  refine ⟨hcurrent, hjournal, hnode, ?_⟩
  have hline := hwrite now fault file.parts
  have hadmits : Level.admits .warning fault.level = true := rfl
  rw [show run disk events = state from rfl, hjournal, hnode, if_pos hadmits] at hline
  rw [hline]
  simp [timesAt, Node.lengthen]

/-- A path with one slash at its beginning and one with two are two files of a journal, but one
file of the disk: it gets every line twice. -/
theorem node?_run_two_slashes :
    let disk : Disk := ⟨[], []⟩
    let now : Moment := ⟨2024, 1, 2, 3, 4, 5⟩
    let entry : Entry := ⟨.info, "tms".toList, "yes".toList⟩
    let state := run disk [.attach (Path.ofText "/a.log".toList) .info,
      .attach (Path.ofText "//a.log".toList) .info, .write now entry]
    state.journal.files = [⟨.root, ["a.log".toList]⟩, ⟨.doubleRoot, ["a.log".toList]⟩] ∧
      state.disk.node? ["a.log".toList] = some (.file (line now entry ++ line now entry)) := by
  decide

end Journal

end RuleSweep
