/-
# The course of a run

A run that comes to a result passes through all its stages: it reads its words, sets up the
journal, loads the settings, reads the source and the rule list, and evaluates.  `Course` names
what each stage gave, and `Follows` says that a run took this course; what is left of the run is
to report the result (`Follows.run_eq`).  Every run that comes to a result took a course
(`exists_follows`), and `Opens` says that a run came at least as far as its settings.

Once the settings are loaded, only the journal is written until the result is saved.  Its one file
is known by the last name of its path, so every file of another name is left alone: `read_note`.
-/
import RuleSweep.CommandLine
import RuleSweep.Proofs.Journal

namespace RuleSweep

namespace Path

/-- The path from the root ends in the same name, if that does not lead upward. -/
theorem getLast?_absolute {path : Path} {last : Text}
    (hparts : path.parts.getLast? = some last) (hlast : last ≠ upward) (place : List Text) :
    (path.absolute place).parts.getLast? = some last := by
  have hfollow : ∀ (front : List Text) (place : List Text),
      (follow place (front ++ [last])).getLast? = some last := by
    intro front
    induction front with
    | nil =>
      intro place
      simp [follow, hlast]
    | cons part front ih =>
      intro place
      rw [List.cons_append, follow]
      exact ih _
  obtain ⟨front, hfront⟩ := List.getLast?_eq_some_iff.mp hparts
  unfold absolute
  rw [hfront]
  split
  · exact hfollow front place
  · exact hfollow front []

end Path

/-! ## What a journal leaves alone -/

namespace Journal

/-- The paths of all files of a journal end in the given name. -/
def IsNamed (journal : Journal) (name : Text) : Prop :=
  ∀ file ∈ journal.files, file.parts.getLast? = some name

variable {journal : Journal} {disk : Disk} {path : Path} {name : Text}

/-- A line that is added to files of one name leaves everything of another name alone. -/
theorem keepsApart_addLine {files : List Path} (hname : name ≠ Path.upward)
    (hfiles : ∀ file ∈ files, file.parts.getLast? = some name) (line : Bytes) (disk : Disk) :
    disk.KeepsApart name (addLine line disk files) := by
  induction files generalizing disk with
  | nil => exact Disk.KeepsApart.refl name disk
  | cons file files ih =>
    rw [List.forall_mem_cons] at hfiles
    rw [addLine]
    cases happend : disk.append file line with
    | error e => exact ih hfiles.2 disk
    | ok lengthened =>
      exact (Disk.keepsApart_update hfiles.1 hname happend).trans (ih hfiles.2 lengthened)

/-- Entries that are written into files of one name leave everything of another name alone. -/
theorem keepsApart_writeAll (hname : name ≠ Path.upward) (hjournal : journal.IsNamed name)
    (now : Moment) (entries : List Entry) (disk : Disk) :
    disk.KeepsApart name (journal.writeAll now entries disk) := by
  induction entries generalizing disk with
  | nil => exact Disk.KeepsApart.refl name disk
  | cons entry entries ih =>
    rw [writeAll, List.foldl_cons]
    refine Disk.KeepsApart.trans ?_ (ih _)
    rw [write]
    split
    · exact keepsApart_addLine hname hjournal _ disk
    · exact Disk.KeepsApart.refl name disk

/-- The file of a journal that was set up afresh ends in the name of the path that was given. -/
theorem isNamed_attach {level : Level} {opened : Disk} (hname : name ≠ Path.upward)
    (hpath : path.parts.getLast? = some name)
    (h : unset.attach path level disk = (.ok (), journal, opened)) : journal.IsNamed name := by
  have hempty : path.absolute disk.current ∉ unset.files := List.not_mem_nil
  have hfiles : journal.files = [path.absolute disk.current] := by
    obtain ⟨e, -, heq⟩ | ⟨-, ⟨hmem, -⟩ | ⟨-, ⟨e, heq⟩ | ⟨ready, -, heq⟩⟩⟩ :=
      attach_eq path level unset disk
    · rw [h] at heq
      exact absurd heq (by simp)
    · exact absurd hmem hempty
    · rw [h] at heq
      exact absurd heq (by simp)
    · rw [h, Prod.mk.injEq, Prod.mk.injEq] at heq
      rw [heq.2.1]
      rfl
  intro file hfile
  rw [hfiles, List.mem_singleton] at hfile
  rw [hfile]
  exact Path.getLast?_absolute hpath hname _

end Journal

/-- The name of the file of the program's journal. -/
def Home.logName : Text := "text_multi_search.log".toList

/-- The name of the file of the journal does not lead upward. -/
theorem Home.logName_ne_upward : logName ≠ Path.upward := by
  decide

/-- The path of the journal ends in the name of its file. -/
theorem Home.getLast?_journal (home : Home) : home.journal.parts.getLast? = some logName := by
  unfold journal logName Path.child
  exact List.getLast?_concat

namespace CommandLine

/-- Entries leave a file of another name than that of the journal alone. -/
theorem Session.read_note {session : Session} {path : Path} {content : Bytes}
    (hpath : path.EndsApart Home.logName) (hjournal : session.journal.IsNamed Home.logName)
    (now : Moment) (entries : List Entry) :
    (session.note now entries).disk.read path = .ok content ↔
      session.disk.read path = .ok content :=
  (Journal.keepsApart_writeAll Home.logName_ne_upward hjournal now entries _).read_iff hpath

/-! ## Courses -/

/-- What the stages of a run gave, up to its result. -/
structure Course where
  /-- The command line. -/
  args : Arguments
  /-- The settings. -/
  settings : Settings
  /-- The source. -/
  source : Text
  /-- The rule list. -/
  rules : Text
  /-- The result. -/
  result : Result

namespace Course

section Sessions

variable (course : Course) (environment : Environment) (disk : Disk)

/-- How the journal is set up. -/
def attached : Except DiskFault Unit × Journal × Disk :=
  Journal.unset.attach environment.home.journal (if course.args.verbose then .debug else .info)
    disk

/-- The session in which the settings are loaded. -/
def started : Session :=
  let (_, journal, opened) := course.attached environment disk
  (⟨opened, journal, [], []⟩ : Session).noteOwn environment.now .info
    ("Run started. Log file: ".toList ++ environment.home.journal.text)

/-- How the settings are loaded. -/
def loading : Except Settings.Fault Settings × Disk :=
  Settings.load (course.args.config.getD environment.home.settings)
    (course.started environment disk).disk

/-- The session in which the source is read. -/
def loaded : Session :=
  { course.started environment disk with disk := (course.loading environment disk).2 }

/-- How the source is read. -/
def readingSource : Except Failure Text × Session :=
  readInput environment course.settings course.settings.maxSourceBytes course.args.source
    (course.loaded environment disk)

/-- How the rule list is read. -/
def readingRules : Except Failure Text × Session :=
  readRules environment course.args course.settings (course.readingSource environment disk).2

/-- How the rules are evaluated. -/
def evaluation : Except Failure Result × Session :=
  evaluateTexts environment course.source course.rules (course.readingRules environment disk).2

end Sessions

/-- A run takes a course: every stage gives what the course says. -/
structure Follows (course : Course) (environment : Environment) (words : List Text)
    (disk : Disk) : Prop where
  /-- It reads its words. -/
  words : Arguments.ofWords words = .ok course.args
  /-- It sets up the journal. -/
  attached : (course.attached environment disk).1 = .ok ()
  /-- It loads the settings. -/
  settings : (course.loading environment disk).1 = .ok course.settings
  /-- It reads the source. -/
  source : (course.readingSource environment disk).1 = .ok course.source
  /-- It reads the rule list. -/
  rules : (course.readingRules environment disk).1 = .ok course.rules
  /-- It evaluates the rule list on the source. -/
  result : (course.evaluation environment disk).1 = .ok course.result

/-- Whether a run takes a course can be told by following it. -/
instance (course : Course) (environment : Environment) (words : List Text) (disk : Disk) :
    Decidable (course.Follows environment words disk) :=
  decidable_of_iff
    (Arguments.ofWords words = .ok course.args ∧
      (course.attached environment disk).1 = .ok () ∧
      (course.loading environment disk).1 = .ok course.settings ∧
      (course.readingSource environment disk).1 = .ok course.source ∧
      (course.readingRules environment disk).1 = .ok course.rules ∧
      (course.evaluation environment disk).1 = .ok course.result)
    ⟨fun ⟨hwords, hattached, hsettings, hsource, hrules, hresult⟩ =>
      ⟨hwords, hattached, hsettings, hsource, hrules, hresult⟩,
      fun h => ⟨h.words, h.attached, h.settings, h.source, h.rules, h.result⟩⟩

/-- A run takes a course as far as its settings. -/
structure Opens (course : Course) (environment : Environment) (words : List Text)
    (disk : Disk) : Prop where
  /-- It reads its words. -/
  words : Arguments.ofWords words = .ok course.args
  /-- It sets up the journal. -/
  attached : (course.attached environment disk).1 = .ok ()
  /-- It loads the settings. -/
  settings : (course.loading environment disk).1 = .ok course.settings

end Course

variable {environment : Environment} {words : List Text} {disk : Disk} {course : Course}

namespace Course.Opens

variable (h : course.Opens environment words disk)
include h

/-- A run that comes as far as its settings sets up the journal and goes on. -/
theorem runArguments_eq :
    runArguments environment course.args disk
      = runJournaled environment course.args ⟨(course.attached environment disk).2.2,
          (course.attached environment disk).2.1, [], []⟩ := by
  rw [runArguments]
  split
  · next e journal left heq =>
    exact absurd ((congrArg Prod.fst heq).symm.trans h.attached) (by simp)
  · next journal opened heq => rw [Course.attached, heq]

/-- A run that comes as far as its settings loads them and goes on. -/
theorem runJournaled_eq :
    runJournaled environment course.args ⟨(course.attached environment disk).2.2,
        (course.attached environment disk).2.1, [], []⟩
      = runWith environment course.args course.settings (course.loaded environment disk) := by
  rw [runJournaled]
  split
  · next e left heq =>
    exact absurd ((congrArg Prod.fst heq).symm.trans h.settings) (by simp)
  · next settings left heq =>
    have hsettings := Except.ok.inj ((congrArg Prod.fst heq).symm.trans h.settings)
    have hleft : (course.loading environment disk).2 = left := congrArg Prod.snd heq
    rw [hsettings, ← hleft]
    rfl

/-- **Behind its settings, a run reads its files, evaluates and reports.** -/
theorem run_eq_runWith :
    run environment words disk
      = runWith environment course.args course.settings (course.loaded environment disk) := by
  rw [run, h.words]
  show runArguments environment course.args disk = _
  rw [h.runArguments_eq, h.runJournaled_eq]

end Course.Opens

namespace Course.Follows

variable (h : course.Follows environment words disk)
include h

/-- A run that takes a course comes as far as its settings. -/
theorem opens : course.Opens environment words disk :=
  ⟨h.words, h.attached, h.settings⟩

/-- A run that takes a course reads its files and evaluates. -/
theorem evaluateFiles_eq :
    evaluateFiles environment course.args course.settings (course.loaded environment disk)
      = (.ok course.result, (course.evaluation environment disk).2) := by
  rw [evaluateFiles]
  split
  · next e left heq =>
    exact absurd ((congrArg Prod.fst heq).symm.trans h.source) (by simp)
  · next source sourced hreading =>
    have hsource := Except.ok.inj ((congrArg Prod.fst hreading).symm.trans h.source)
    have hsourced : (course.readingSource environment disk).2 = sourced :=
      congrArg Prod.snd hreading
    rw [← hsourced]
    split
    · next e left heq =>
      exact absurd ((congrArg Prod.fst heq).symm.trans h.rules) (by simp)
    · next rules ruled heq =>
      have hrules := Except.ok.inj ((congrArg Prod.fst heq).symm.trans h.rules)
      have hruled : (course.readingRules environment disk).2 = ruled := congrArg Prod.snd heq
      rw [hsource, hrules, ← hruled]
      exact Prod.ext h.result rfl

/-- **What is left of a run is to report its result.** -/
theorem run_eq :
    run environment words disk = reportResult environment course.args course.settings
      course.result (course.evaluation environment disk).2 := by
  rw [h.opens.run_eq_runWith, runWith, h.evaluateFiles_eq]

end Course.Follows

/-- A run that comes to a result has read its files and evaluated. -/
theorem exists_of_evaluateFiles {args : Arguments} {settings : Settings} {session : Session}
    {result : Result} (h : (evaluateFiles environment args settings session).1 = .ok result) :
    ∃ source sourced rules ruled,
      readInput environment settings settings.maxSourceBytes args.source session
        = (.ok source, sourced) ∧
      readRules environment args settings sourced = (.ok rules, ruled) ∧
      (evaluateTexts environment source rules ruled).1 = .ok result := by
  rw [evaluateFiles] at h
  split at h
  · exact absurd h (by simp)
  · next source sourced hsource =>
    split at h
    · exact absurd h (by simp)
    · next rules ruled hrules => exact ⟨source, sourced, rules, ruled, hsource, hrules, h⟩

/-- **A run that comes to a result took a course.** -/
theorem exists_follows {args : Arguments} {journal : Journal} {opened left : Disk}
    {started : Session} {settings : Settings} {result : Result}
    (hargs : Arguments.ofWords words = .ok args)
    (hattach : Journal.unset.attach environment.home.journal
      (if args.verbose then .debug else .info) disk = (.ok (), journal, opened))
    (hstarted : started = (⟨opened, journal, [], []⟩ : Session).noteOwn environment.now .info
      ("Run started. Log file: ".toList ++ environment.home.journal.text))
    (hload : Settings.load (args.config.getD environment.home.settings) started.disk
      = (.ok settings, left))
    (hfiles : (evaluateFiles environment args settings { started with disk := left }).1
      = .ok result) :
    ∃ course : Course, course.args = args ∧ course.Follows environment words disk := by
  obtain ⟨source, sourced, rules, ruled, hsource, hrules, hresult⟩ :=
    exists_of_evaluateFiles hfiles
  subst hstarted
  let course : Course := ⟨args, settings, source, rules, result⟩
  have hattached : course.attached environment disk = (.ok (), journal, opened) := hattach
  have hloading : course.loading environment disk = (.ok settings, left) := by
    rw [Course.loading, Course.started, hattached]
    exact hload
  have hsourced : course.readingSource environment disk = (.ok source, sourced) := by
    rw [Course.readingSource, Course.loaded, hloading, Course.started, hattached]
    exact hsource
  have hruled : course.readingRules environment disk = (.ok rules, ruled) := by
    rw [Course.readingRules, hsourced]
    exact hrules
  refine ⟨course, rfl, hargs, congrArg Prod.fst hattached, congrArg Prod.fst hloading,
    congrArg Prod.fst hsourced, congrArg Prod.fst hruled, ?_⟩
  rw [Course.evaluation, hruled]
  exact hresult

/-! ## What happens on the course -/

/-- An input file that was read is there in the session in which it is read. -/
theorem read_of_readInput {settings : Settings} {limit : Int} {path : Path} {session : Session}
    {text : Text} (h : (readInput environment settings limit path session).1 = .ok text) :
    InputFile.read session.disk path ⟨limit, settings.encoding, settings.checkExtensions⟩
      = .ok text := by
  rw [readInput] at h
  split at h
  · exact absurd h (by simp)
  · next found hread =>
    rw [Except.ok.injEq] at h
    rw [hread, h]

/-- Reading an input file keeps the journal. -/
theorem journal_readInput (settings : Settings) (limit : Int) (path : Path) (session : Session) :
    (readInput environment settings limit path session).2.journal = session.journal := by
  rw [readInput]
  split
  · rfl
  · rfl

/-- Reading the rule list keeps the journal. -/
theorem journal_readRules (args : Arguments) (settings : Settings) (session : Session) :
    (readRules environment args settings session).2.journal = session.journal := by
  rw [readRules]
  split
  · rfl
  · exact journal_readInput settings settings.maxRulesBytes _ session

/-- Reading an input file prints nothing. -/
theorem printed_readInput (environment : Environment) (settings : Settings) (limit : Int)
    (path : Path) (session : Session) :
    (readInput environment settings limit path session).2.out = session.out ∧
      (readInput environment settings limit path session).2.err = session.err := by
  rw [readInput]
  split
  · exact ⟨rfl, rfl⟩
  · exact ⟨rfl, rfl⟩

/-- Reading the rule list prints nothing. -/
theorem printed_readRules (environment : Environment) (args : Arguments) (settings : Settings)
    (session : Session) :
    (readRules environment args settings session).2.out = session.out ∧
      (readRules environment args settings session).2.err = session.err := by
  rw [readRules]
  split
  · exact ⟨rfl, rfl⟩
  · exact printed_readInput environment settings settings.maxRulesBytes _ session

/-- When the rules have been evaluated, nothing has been printed. -/
theorem Course.printed_evaluation (course : Course) (environment : Environment) (disk : Disk) :
    (course.evaluation environment disk).2.out = [] ∧
      (course.evaluation environment disk).2.err = [] := by
  have hrules := printed_readRules environment course.args course.settings
    (course.readingSource environment disk).2
  have hsource := printed_readInput environment course.settings
    course.settings.maxSourceBytes course.args.source (course.loaded environment disk)
  exact ⟨hrules.1.trans hsource.1, hrules.2.trans hsource.2⟩

namespace Course.Follows

variable (h : course.Follows environment words disk)
include h

/-- The source is what the settings make of the source file. -/
theorem read_source :
    InputFile.read (course.loaded environment disk).disk course.args.source
      ⟨course.settings.maxSourceBytes, course.settings.encoding, course.settings.checkExtensions⟩
      = .ok course.source :=
  read_of_readInput h.source

/-- The rule list is what the settings make of the rule file. -/
theorem read_rules :
    ∃ path, course.args.rules = some path ∧
      InputFile.read (course.readingSource environment disk).2.disk path
        ⟨course.settings.maxRulesBytes, course.settings.encoding,
          course.settings.checkExtensions⟩ = .ok course.rules := by
  have hrules := h.rules
  rw [readingRules, readRules] at hrules
  split at hrules
  · exact absurd hrules (by simp)
  · next path hpath => exact ⟨path, hpath, read_of_readInput hrules⟩

/-- The result is what the rule list answers on the source. -/
theorem evaluateBy_eq :
    evaluateBy environment.sweeper course.source course.rules = .ok course.result := by
  have hresult := h.result
  rw [evaluation, evaluateTexts] at hresult
  cases houtcome : evaluateBy environment.sweeper course.source course.rules with
  | error e =>
    rw [houtcome] at hresult
    exact absurd hresult (by simp [Except.mapError])
  | ok result =>
    rw [houtcome] at hresult
    exact congrArg Except.ok (Except.ok.inj hresult)

/-- The result is what the rule list answers on the source, if no sweep breaks off. -/
theorem evaluate_eq (hsteady : environment.sweeper = .steady) :
    evaluate course.source course.rules = .ok course.result := by
  have hresult := h.evaluateBy_eq
  rwa [hsteady] at hresult

/-- The journal of a course has the file of the program's journal only. -/
theorem isNamed : (course.evaluation environment disk).2.journal.IsNamed Home.logName := by
  have hattached : course.attached environment disk = (.ok (), _, _) := Prod.ext h.attached rfl
  have hjournal : (course.evaluation environment disk).2.journal
      = (course.attached environment disk).2.1 := by
    show (course.readingRules environment disk).2.journal = _
    rw [readingRules, journal_readRules, readingSource, journal_readInput]
    rfl
  rw [hjournal]
  exact Journal.isNamed_attach Home.logName_ne_upward environment.home.getLast?_journal hattached

end Course.Follows

end CommandLine

end RuleSweep
