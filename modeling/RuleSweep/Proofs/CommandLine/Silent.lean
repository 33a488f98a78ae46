/-
# Runs before they have a result

Until a run has a result it prints no output, and it changes nothing but the files of its journal
and its settings and the folders on the way to them.  `IsSilent` says so of a session.  Every stage
keeps a session silent, whether or not it succeeds; so a run takes a course and has a result to
report, or it ends in a silent session: `follows_or_silent`.
-/
import RuleSweep.Proofs.CommandLine.Course
import RuleSweep.Proofs.Disk.Changes

namespace RuleSweep

namespace CommandLine

/-! ## What a run may change -/

/-- The files that a run may write before it has a result: those of the journal and the settings. -/
def ownFiles (environment : Environment) (args : Arguments) (current : Place) : List Path :=
  [environment.home.journal.absolute current, args.config.getD environment.home.settings]

/-- The folders that a run may make before it has a result: those that hold its own files. -/
def ownFolders (environment : Environment) (args : Arguments) : List Path :=
  [environment.home.journal.parent, (args.config.getD environment.home.settings).parent]

/-- A session has printed no output, and has changed nothing but the files and folders that are the
run's own. -/
structure IsSilent (environment : Environment) (args : Arguments) (disk : Disk)
    (session : Session) : Prop where
  /-- It has printed no output. -/
  out : session.out = []
  /-- It has changed nothing else. -/
  changes : Disk.ChangesOnly (ownFiles environment args disk.current)
    (ownFolders environment args) disk session.disk
  /-- Its journal has no other file. -/
  journal : ∀ file ∈ session.journal.files, file = environment.home.journal.absolute disk.current

variable {environment : Environment} {args : Arguments} {words : List Text} {disk : Disk}
  {session : Session}

namespace IsSilent

/-! ## One stage -/

/-- The session in which the journal is set up is silent, whether or not that succeeds. -/
theorem attach {level : Level} {journal : Journal} {opened : Disk}
    {outcome : Except DiskFault Unit}
    (hattach : Journal.unset.attach environment.home.journal level disk
      = (outcome, journal, opened)) : IsSilent environment args disk ⟨opened, journal, [], []⟩ := by
  have hfile : environment.home.journal.absolute disk.current
      ∈ ownFiles environment args disk.current := List.mem_cons_self
  have hfolder : environment.home.journal.parent ∈ ownFolders environment args :=
    List.mem_cons_self
  obtain ⟨hchanges, hfiles⟩ := Journal.changesOnly_attach environment.home.journal level
    Journal.unset disk hfile hfolder
  rw [hattach] at hchanges hfiles
  refine ⟨rfl, hchanges, ?_⟩
  intro file hmem
  rcases hfiles file hmem with hunset | hown
  · exact absurd hunset List.not_mem_nil
  · exact hown

section

variable (h : IsSilent environment args disk session)
include h

/-- A message leaves a session silent, since it is no output. -/
theorem say (message : Text) : IsSilent environment args disk (session.say message) :=
  ⟨h.out, h.changes, h.journal⟩

/-- Entries of the journal leave a session silent. -/
theorem note (now : Moment) (entries : List Entry) :
    IsSilent environment args disk (session.note now entries) := by
  refine ⟨h.out, h.changes.trans ?_, h.journal⟩
  apply Journal.changesOnly_writeAll
  intro file hfile
  rw [h.journal file hfile]
  exact List.mem_cons_self

/-- Loading the settings leaves a session silent, whether or not it succeeds. -/
theorem load {left : Disk} {outcome : Except Settings.Fault Settings}
    (hload : Settings.load (args.config.getD environment.home.settings) session.disk
      = (outcome, left)) : IsSilent environment args disk { session with disk := left } := by
  have hleft : left
      = (Settings.load (args.config.getD environment.home.settings) session.disk).2 := by
    rw [hload]
  refine ⟨h.out, h.changes.trans ?_, h.journal⟩
  show Disk.ChangesOnly _ _ session.disk left
  rw [hleft]
  exact Settings.changesOnly_load (by simp [ownFiles]) (by simp [ownFolders]) session.disk

/-- Reading an input file leaves a session silent, whether or not it succeeds. -/
theorem readInput (settings : Settings) (limit : Int) (path : Path) :
    IsSilent environment args disk
      (readInput environment settings limit path session).2 := by
  rw [CommandLine.readInput]
  split
  · exact h
  · exact h.note _ _

/-- Reading the rule list leaves a session silent, whether or not it succeeds. -/
theorem readRules (settings : Settings) :
    IsSilent environment args disk (readRules environment args settings session).2 := by
  rw [CommandLine.readRules]
  split
  · exact h
  · exact h.readInput settings _ _

/-- **Reading the files and evaluating leaves a session silent**, whether or not it succeeds. -/
theorem evaluateFiles (settings : Settings) :
    IsSilent environment args disk (evaluateFiles environment args settings session).2 := by
  have hsourced := h.readInput settings settings.maxSourceBytes args.source
  rw [CommandLine.evaluateFiles]
  split
  · next e sourced hsource =>
    rw [hsource] at hsourced
    exact hsourced
  · next source sourced hsource =>
    rw [hsource] at hsourced
    have hruled := hsourced.readRules settings
    split
    · next e ruled hrules =>
      rw [hrules] at hruled
      exact hruled
    · next rules ruled hrules =>
      rw [hrules] at hruled
      exact hruled.note _ _

end

end IsSilent

/-! ## The whole run -/

/-- A run has failed: it ends with the exit code one, or breaks off. -/
def Ending.IsFailure (ending : Ending) : Prop :=
  ending = .exit 1 ∨ ∃ e, ending = .escaped e

/-- **A run takes a course and has a result to report, or it fails in a silent session.** -/
theorem follows_or_silent (hargs : Arguments.ofWords words = .ok args) :
    (∃ course : Course, course.args = args ∧ course.Follows environment words disk) ∨
      (run environment words disk).1.IsFailure ∧
        IsSilent environment args disk (run environment words disk).2 := by
  have hrun : run environment words disk = runArguments environment args disk := by
    rw [run, hargs]
  rw [hrun, runArguments]
  split
  · next e journal left hattach =>
    exact Or.inr ⟨Or.inr ⟨_, rfl⟩, IsSilent.attach hattach⟩
  · next journal opened hattach =>
    have hstarted : IsSilent environment args disk
        ((⟨opened, journal, [], []⟩ : Session).noteOwn environment.now .info
          ("Run started. Log file: ".toList ++ environment.home.journal.text)) :=
      (IsSilent.attach hattach).note _ _
    rw [runJournaled]
    split
    · next e left hload => exact Or.inr ⟨Or.inr ⟨_, rfl⟩, hstarted.load hload⟩
    · next settings left hload =>
      have hfiles := (hstarted.load hload).evaluateFiles settings
      rw [runWith]
      split
      · next e done hdone =>
        rw [hdone] at hfiles
        exact Or.inr ⟨Or.inr ⟨_, rfl⟩, hfiles⟩
      · next message done hdone =>
        rw [hdone] at hfiles
        exact Or.inr ⟨Or.inl rfl, (hfiles.note _ _).say _⟩
      · next result done hdone =>
        exact Or.inl (exists_follows hargs hattach rfl hload (congrArg Prod.fst hdone))

end CommandLine

end RuleSweep
