/-
# Runs without an input file

A run that has loaded its settings and cannot read the source or the rule list prints no result.
If the file is refused, the run says so and ends with the exit code one; whatever else is wrong with
the file breaks the run off (`Course.Opens.run_of_unread`).

So not every file that cannot be read is reported: a source in UTF-16 without a mark breaks the run
off, and so does a source with a name that is too long (`run_unmarked`).  The main statement,
`unreadable_input`, says which files are reported and which break a run off.
-/
import RuleSweep.Proofs.CommandLine.Course
import RuleSweep.Proofs.InputFile.Escapes
import RuleSweep.Proofs.Settings.Load

namespace RuleSweep

namespace CommandLine

/-- A run ends with the exit code one, and all it prints is an error message. -/
structure Reports (outcome : Ending × Session) (message : Text) : Prop where
  /-- It ends with the exit code one. -/
  ending : outcome.1 = .exit 1
  /-- It prints no output. -/
  out : outcome.2.out = []
  /-- It prints the message. -/
  err : outcome.2.err = "error: ".toList ++ message ++ ['\n']

/-- A run breaks off and prints nothing. -/
structure BreaksOff (outcome : Ending × Session) (e : Escape) : Prop where
  /-- It breaks off. -/
  ending : outcome.1 = .escaped e
  /-- It prints no output. -/
  out : outcome.2.out = []
  /-- It prints no message. -/
  err : outcome.2.err = []

namespace Course

/-- A run that has loaded its settings cannot read the source, or has read the source and cannot
read the rule list. -/
inductive Unread (course : Course) (environment : Environment) (disk : Disk) :
    InputFile.Fault → Prop
  /-- It cannot read the source. -/
  | source {fault : InputFile.Fault}
    (hread : InputFile.read (course.loaded environment disk).disk course.args.source
      ⟨course.settings.maxSourceBytes, course.settings.encoding, course.settings.checkExtensions⟩
        = .error fault) : course.Unread environment disk fault
  /-- It has read the source and cannot read the rule list. -/
  | rules {path : Path} {fault : InputFile.Fault}
    (hsource : (course.readingSource environment disk).1 = .ok course.source)
    (hpath : course.args.rules = some path)
    (hread : InputFile.read (course.readingSource environment disk).2.disk path
      ⟨course.settings.maxRulesBytes, course.settings.encoding, course.settings.checkExtensions⟩
        = .error fault) : course.Unread environment disk fault

end Course

variable {environment : Environment} {words : List Text} {disk : Disk} {course : Course}
  {fault : InputFile.Fault}

/-- A file that cannot be read leaves the session as it is. -/
theorem readInput_of_error {settings : Settings} {limit : Int} {path : Path} {session : Session}
    (h : InputFile.read session.disk path ⟨limit, settings.encoding, settings.checkExtensions⟩
      = .error fault) :
    readInput environment settings limit path session = (.error (.ofInput fault), session) := by
  rw [readInput, h]

/-- A run whose files cannot be read is one that has printed nothing so far. -/
theorem Course.Unread.evaluateFiles_eq (h : course.Unread environment disk fault) :
    ∃ session, evaluateFiles environment course.args course.settings
        (course.loaded environment disk) = (.error (.ofInput fault), session) ∧
      session.out = [] ∧ session.err = [] := by
  cases h with
  | source hread =>
    refine ⟨course.loaded environment disk, ?_, rfl, rfl⟩
    rw [evaluateFiles, readInput_of_error hread]
  | @rules path _ hsource hpath hread =>
    have hprinted : (course.readingSource environment disk).2.out = [] ∧
        (course.readingSource environment disk).2.err = [] :=
      printed_readInput _ _ _ _ _
    refine ⟨(course.readingSource environment disk).2, ?_, hprinted⟩
    have hreading : readInput environment course.settings course.settings.maxSourceBytes
        course.args.source (course.loaded environment disk)
          = (.ok course.source, (course.readingSource environment disk).2) := Prod.ext hsource rfl
    rw [evaluateFiles, hreading]
    simp only [readRules, hpath, readInput_of_error hread]

/-- **A refused file is reported, and anything else that is wrong with a file breaks the run
off.** -/
theorem Course.Opens.run_of_unread (h : course.Opens environment words disk)
    (hunread : course.Unread environment disk fault) :
    (∀ e, fault = .refused e → Reports (run environment words disk) e.message) ∧
      ((∀ e, fault ≠ .refused e) → BreaksOff (run environment words disk) (.input fault)) := by
  obtain ⟨session, hfiles, hout, herr⟩ := hunread.evaluateFiles_eq
  rw [h.run_eq_runWith, runWith, hfiles]
  constructor
  · rintro e rfl
    refine ⟨rfl, hout, ?_⟩
    show session.err ++ ("error: ".toList ++ e.message) ++ ['\n'] = _
    rw [herr, List.nil_append]
  · intro hrefused
    cases fault with
    | refused e => exact absurd rfl (hrefused e)
    | noMark => exact ⟨rfl, hout, herr⟩
    | sizeOverflow => exact ⟨rfl, hout, herr⟩
    | zeroInName => exact ⟨rfl, hout, herr⟩
    | disk e => exact ⟨rfl, hout, herr⟩

/-- **Input files that cannot be read.**  Let the encoding be one that was loaded with some settings.
Then an input file gives a text, or it is refused, or it escapes, which is to say that its path is
too long, that it lacks the mark of UTF-16, or that its size cannot be shown; and the last of these
is met on no disk.  It is refused as too large exactly if it is there and larger than the limit.

A run that has loaded its settings reports every input file that is refused, and ends with the exit
code one; an input file that escapes breaks the run off.  In either case no output is printed. -/
theorem unreadable_input {config : Path} {saved left : Disk} {settings : Settings}
    (hload : Settings.load config saved = (.ok settings, left)) :
    (∀ (disk : Disk) (path : Path) (limit : Int) (textName : Bool), 0 < limit →
      let demands : InputFile.Demands := ⟨limit, settings.encoding, textName⟩
      (∀ fault, InputFile.Escapes disk path demands fault ↔
        InputFile.read disk path demands = .error fault ∧ ∀ e, fault ≠ .refused e) ∧
      ((∃ fault, InputFile.Escapes disk path demands fault) ∨
        (∃ text, InputFile.read disk path demands = .ok text) ∨
        ∃ e, InputFile.read disk path demands = .error (.refused e)) ∧
      (InputFile.Escapes disk path demands .sizeOverflow → ∃ content,
        disk.look path = .ok (some (.file content)) ∧ Size.beyondDisks ≤ content.length) ∧
      ∀ size most : Int, size < Size.beyondDisks →
        (InputFile.read disk path demands = .error (.refused (.tooLarge size most)) ↔
          most = limit ∧ ∃ content, disk.look path = .ok (some (.file content)) ∧
            size = content.length ∧ limit < content.length)) ∧
    ∀ environment words disk (course : Course), course.Opens environment words disk →
      ∀ fault, course.Unread environment disk fault →
        (∀ e, fault = .refused e → Reports (run environment words disk) e.message) ∧
        ((∀ e, fault ≠ .refused e) → BreaksOff (run environment words disk) (.input fault)) := by
  have hknown : Settings.IsKnown settings.encoding := (Settings.isValid_of_load hload).1.encoding
  constructor
  · intro disk path limit textName hpos demands
    have hescapes : ∀ fault, InputFile.Escapes disk path demands fault ↔
        InputFile.read disk path demands = .error fault ∧ ∀ e, fault ≠ .refused e :=
      fun fault => (InputFile.read_eq_error_iff hknown).symm
    refine ⟨hescapes, ?_, ?_, fun size most hsize => InputFile.read_eq_tooLarge_iff hpos hsize⟩
    · cases hread : InputFile.read disk path demands with
      | ok text => exact Or.inr (Or.inl ⟨text, rfl⟩)
      | error fault =>
        by_cases hrefused : ∃ e, fault = .refused e
        · obtain ⟨e, rfl⟩ := hrefused
          exact Or.inr (Or.inr ⟨e, rfl⟩)
        · refine Or.inl ⟨fault, (hescapes fault).mpr ⟨hread, ?_⟩⟩
          exact fun e he => hrefused ⟨e, he⟩
    · intro h
      cases h with
      | @beyond content hlook hlarge hshown =>
        have hbeyond := Size.le_of_tooLarge?_eq_none hpos hlarge hshown
        exact ⟨content, hlook, Int.ofNat_le.mp hbeyond⟩
  · intro environment words disk course hopens fault hunread
    exact hopens.run_of_unread hunread

/-- A source in UTF-16 that breaks off in the middle of a unit is refused, and the run reports it.
With a lower limit it is too large. -/
theorem unreadable_input_half_unit :
    let environment : Environment := ⟨⟨⟨.root, []⟩⟩, ⟨2024, 1, 2, 3, 4, 5⟩, .steady⟩
    let words := ["s.txt".toList, "r.txt".toList]
    let settings : Settings := { encoding := "utf-16".toList }
    let disk : Disk := ⟨[], [(["config.json".toList], .file (Utf8.encode settings.document)),
      (["s.txt".toList], .file [0xFF, 0xFE, 0x61])]⟩
    let source : Path := ⟨.here, ["s.txt".toList]⟩
    let refusal : InputFile.Refusal := .undecodable source
      ⟨"utf-16-le".toList, 0x61, 2, 3, "truncated data".toList⟩
    Settings.load environment.home.settings disk = (.ok settings, disk) ∧
      InputFile.read disk source ⟨2, settings.encoding, true⟩
        = .error (.refused (.tooLarge 3 2)) ∧
      (¬ ∃ fault, InputFile.Escapes disk source ⟨3, settings.encoding, true⟩ fault) ∧
      Reports (run environment words disk) refusal.message := by
  intro environment words settings disk source refusal
  have hload : Settings.load environment.home.settings disk = (.ok settings, disk) := by
    decide +kernel
  obtain ⟨hread, hrun⟩ := unreadable_input hload
  refine ⟨hload, ?_, ?_, ?_⟩
  · obtain ⟨-, -, -, hlarge⟩ := hread disk source 2 true (by decide)
    rw [hlarge 3 2 (by decide +kernel)]
    exact ⟨rfl, [0xFF, 0xFE, 0x61], by decide +kernel, rfl, by decide⟩
  · rintro ⟨fault, hfault⟩
    obtain ⟨hescapes, -⟩ := hread disk source 3 true (by decide)
    obtain ⟨herror, hrefused⟩ := (hescapes fault).mp hfault
    have hundecodable : InputFile.read disk source ⟨3, settings.encoding, true⟩
        = .error (.refused refusal) := by
      decide +kernel
    rw [hundecodable, Except.error.injEq] at herror
    exact hrefused refusal herror.symm
  · let course : Course := ⟨⟨source, some ⟨.here, ["r.txt".toList]⟩, none, none, none, false⟩,
      settings, [], [], .empty⟩
    have hopens : course.Opens environment words disk :=
      ⟨by decide +kernel, by decide +kernel, by decide +kernel⟩
    exact (hrun environment words disk course hopens (.refused refusal)
      (.source (by decide +kernel))).1 refusal rfl

/-- A source in UTF-16 without a mark breaks the run off, although its settings are accepted; and so
does a source with a name of 256 bytes. -/
theorem run_unmarked :
    let environment : Environment := ⟨⟨⟨.root, []⟩⟩, ⟨2024, 1, 2, 3, 4, 5⟩, .steady⟩
    let settings : Settings := { encoding := "utf-16".toList }
    let disk : Disk := ⟨[], [(["config.json".toList], .file (Utf8.encode settings.document)),
      (["s.txt".toList], .file [0x61, 0x00, 0x62, 0x00])]⟩
    let long : Text := List.replicate 256 'a'
    Settings.load environment.home.settings disk = (.ok settings, disk) ∧
      InputFile.read disk ⟨.here, ["s.txt".toList]⟩ ⟨1024, settings.encoding, true⟩
        = .error .noMark ∧
      (run environment ["s.txt".toList, "r.txt".toList] disk).1 = .escaped (.input .noMark) ∧
      InputFile.read disk ⟨.here, [long]⟩ ⟨1024, settings.encoding, false⟩
        = .error (.disk (.refused .longName long)) ∧
      (run environment [long, "r.txt".toList] disk).1
        = .escaped (.input (.disk (.refused .longName long))) := by
  decide +kernel

end CommandLine

end RuleSweep
