/-
# All or nothing

A run prints its result as a whole or not at all.  If one of the stages up to the result fails, the
run is silent.  Otherwise it prints the whole result, a line for every rule that was skipped and the
counts, and only then it saves the result if that is asked for.  It ends with the exit code zero
exactly if nothing is to be saved or the file of the result holds its text: `all_or_nothing`.

A result that could not be saved is not at its place (`saveText_eq_error`), and what the run goes on
writing into its journal does not bring it there: `isSaving_saveIn`.
-/
import RuleSweep.Proofs.CommandLine.Saved
import RuleSweep.Proofs.CommandLine.Silent
import RuleSweep.Proofs.Disk.Saving

namespace RuleSweep

/-! ## Names without a zero character -/

namespace Path

variable {c : Char}

/-- The characters of a stem are those of the name. -/
theorem mem_name_of_mem_stem {path : Path} (h : c ∈ path.stem) : c ∈ path.name := by
  unfold stem at h
  split at h
  · next d after e rest hspan =>
    rw [List.span_eq_takeWhile_dropWhile, Prod.mk.injEq] at hspan
    have hsuffix : e :: rest <:+ path.name.reverse :=
      (List.suffix_cons '.' (e :: rest)).trans (hspan.2 ▸ List.dropWhile_suffix _)
    rw [List.mem_reverse] at h
    exact List.mem_reverse.mp (hsuffix.subset h)
  · exact h

/-- The characters of the name are those of a part. -/
theorem exists_of_mem_name {path : Path} (h : c ∈ path.name) : ∃ part ∈ path.parts, c ∈ part := by
  unfold name at h
  cases hlast : path.parts.getLast? with
  | none =>
    rw [hlast] at h
    exact absurd h List.not_mem_nil
  | some last =>
    rw [hlast, Option.getD_some] at h
    exact ⟨last, List.mem_of_getLast? hlast, h⟩

/-- The characters of the name of a written path are those of the text. -/
theorem mem_of_mem_name_ofText {t : Text} (h : c ∈ (ofText t).name) : c ∈ t := by
  obtain ⟨part, hpart, hc⟩ := exists_of_mem_name h
  rw [ofText, List.mem_filter] at hpart
  exact Text.mem_of_mem_cutEvery hpart.1 hc

/-- The name of a path without a zero character has none. -/
theorem zero_notMem_name {path : Path} (h : path.hasZero = false) : '\x00' ∉ path.name := by
  intro hmem
  obtain ⟨part, hpart, hzero⟩ := exists_of_mem_name hmem
  rw [hasZero, List.any_eq_false] at h
  exact h part hpart (List.contains_iff_mem.mpr hzero)

end Path

/-- A moment in the name of a file is written without a zero character. -/
theorem Moment.zero_notMem_brief (now : Moment) : '\x00' ∉ now.brief := by
  have hdecimal : ∀ n, '\x00' ∉ Text.decimal n := by
    intro n h
    exact absurd (Text.isDigit_of_mem_decimal n _ h) (by decide)
  have htwo : ∀ n, '\x00' ∉ Text.twoDigits n := by
    intro n
    unfold Text.twoDigits
    split
    · simp [hdecimal]
    · exact hdecimal n
  simp [brief, htwo]

/-- The name of the result file of a source without a zero character has none. -/
theorem zero_notMem_resultFileName {source : Text} (h : '\x00' ∉ source) (now : Moment) :
    '\x00' ∉ resultFileName source now := by
  have hstem : '\x00' ∉ (Path.ofText source).stem :=
    fun hmem => h (Path.mem_of_mem_name_ofText (Path.mem_name_of_mem_stem hmem))
  have hbase : '\x00' ∉ if (Path.ofText source).stem = [] then "result".toList
      else (Path.ofText source).stem := by
    split
    · decide
    · exact hstem
  simp only [resultFileName, List.mem_append, List.mem_cons, not_or]
  exact ⟨⟨⟨by decide, hbase⟩, by decide, now.zero_notMem_brief⟩, by decide⟩

namespace CommandLine

variable {environment : Environment} {args : Arguments} {settings : Settings} {result : Result}
  {session : Session} {folder : Path} {encoding text name : Text} {disk left : Disk}
  {fault : SaveFault}

/-! ## Saving -/

/-- **A text that could not be saved is not at its place.** -/
theorem saveText_eq_error (h : saveText encoding text (folder.child name) disk
      = (.error fault, left)) (content : Bytes) (hencode : encodeBy encoding text = .ok content) :
    left.read (folder.child name) ≠ .ok content := by
  rw [saveText] at h
  split at h
  · next e stopped hsave =>
    rw [(Prod.mk.inj h).2] at hsave
    exact Disk.read_of_save_error hsave content
  · next emptied hsave =>
    rw [hencode] at h
    -- a file that could be emptied can be written
    obtain ⟨written, hwritten⟩ := Disk.write_of_read (Disk.read_save hsave) content
    simp only [hwritten] at h
    exact absurd h (by simp)

/-- A text that could not be saved is reported, if its path holds no zero character and the folders
on the way can all be made. -/
theorem saveText_reported (h : saveText encoding text (folder.child name) disk
      = (.error fault, left)) (hzero : (folder.child name).hasZero = false)
    (hfew : folder.parts.length < Disk.missingLimit) : ∃ message, fault = .reported message := by
  rw [saveText] at h
  split at h
  · next e stopped hsave =>
    obtain ⟨kind, path, rfl⟩ := Disk.save_refused hzero hfew hsave
    exact ⟨_, (Except.error.inj (Prod.mk.inj h).1).symm⟩
  · next emptied hsave =>
    cases hencode : encodeBy encoding text with
    | error e =>
      simp only [hencode, Prod.mk.injEq, Except.error.injEq] at h
      exact ⟨_, h.1.symm⟩
    | ok content =>
      obtain ⟨written, hwritten⟩ := Disk.write_of_read (Disk.read_save hsave) content
      simp only [hencode, hwritten] at h
      exact absurd h (by simp)

/-- What is said of a result that was saved. -/
def savedText (target : Path) : Text :=
  "saved: ".toList ++ target.text ++ ['\n']

/-- What is said of a result that could not be saved. -/
def unsavedText (target : Path) (message : Text) : Text :=
  "error: could not save ".toList ++ target.text ++ ": ".toList ++ message ++ ['\n']

/-- The path to the file of a result in a folder. -/
def resultPath (environment : Environment) (args : Arguments) (folder : Path) : Path :=
  folder.child (resultFileName args.source.name environment.now)

/-- What a run says last, and how it ends. -/
inductive Closing (environment : Environment) (args : Arguments) : Ending → Text → Prop
  /-- Nothing is to be saved. -/
  | unasked (hdir : args.saveDir = none) : Closing environment args (.exit 0) []
  /-- The result was saved. -/
  | saved {folder : Path} (hdir : args.saveDir = some (some folder)) :
    Closing environment args (.exit 0) (savedText (resultPath environment args folder))
  /-- The result could not be saved. -/
  | unsaved {folder : Path} (hdir : args.saveDir = some (some folder)) (message : Text) :
    Closing environment args (.exit 1)
      (unsavedText (resultPath environment args folder) message)
  /-- The result could not be saved, and the run breaks off. -/
  | brokenOff (hdir : args.saveDir ≠ none) (e : Escape) :
    Closing environment args (.escaped e) []

/-- The file of a result in a folder holds the text of the result, in an encoding. -/
def HoldsResult (disk : Disk) (target : Path) (encoding : Text) (result : Result) : Prop :=
  ∃ content, encodeBy encoding result.text = .ok content ∧ disk.read target = .ok content

/-- What came of a result that was to be saved as the arguments ask, in a session. -/
structure IsSaving (environment : Environment) (args : Arguments) (settings : Settings)
    (result : Result) (session : Session) (saved : Option Ending × Session) : Prop where
  /-- No output was printed. -/
  out : saved.2.out = session.out
  /-- The journal is the same. -/
  journal : saved.2.journal = session.journal
  /-- It was said what came of it. -/
  err : ∃ last, saved.2.err = session.err ++ last ∧
    Closing environment args (saved.1.getD (.exit 0)) last
  /-- The run goes on exactly if the result was saved as asked. -/
  done : saved.1 = none ↔ args.saveDir = none ∨
    ∃ folder, args.saveDir = some (some folder) ∧
      HoldsResult saved.2.disk (resultPath environment args folder) settings.encoding result
  /-- If it does not go on, it does not end with the exit code zero. -/
  ending : saved.1 ≠ some (.exit 0)
  /-- It does not break off either, if the path is proper and all folders can be made. -/
  reported : ∀ folder, args.saveDir = some (some folder) →
    (resultPath environment args folder).hasZero = false →
    folder.parts.length < Disk.missingLimit → saved.1 = none ∨ saved.1 = some (.exit 1)

/-- A result that is not at its place was not saved. -/
theorem isSaving_of_lost {ending : Ending} {final : Session} {last : Text}
    (hdir : args.saveDir = some (some folder)) (hout : final.out = session.out)
    (hjournal : final.journal = session.journal) (herr : final.err = session.err ++ last)
    (hclosing : Closing environment args ending last) (hending : ending ≠ .exit 0)
    (hlost : ∀ content, encodeBy settings.encoding result.text = .ok content →
      final.disk.read (resultPath environment args folder) ≠ .ok content)
    (hreported : (resultPath environment args folder).hasZero = false →
      folder.parts.length < Disk.missingLimit → ending = .exit 1) :
    IsSaving environment args settings result session (some ending, final) := by
  have hsame : ∀ other, args.saveDir = some (some other) → folder = other := by
    intro other hother
    rwa [hdir, Option.some.injEq, Option.some.injEq] at hother
  refine ⟨hout, hjournal, ⟨last, herr, hclosing⟩, ?_, ?_, ?_⟩
  · constructor
    · exact fun hnone => absurd hnone (by simp)
    · rintro (hnone | ⟨other, hother, content, hencode, hcontent⟩)
      · exact absurd (hdir.symm.trans hnone) (by simp)
      · obtain rfl := hsame other hother
        exact absurd hcontent (hlost content hencode)
  · exact fun hzero => hending (Option.some.inj hzero)
  · intro other hother hzero hfew
    obtain rfl := hsame other hother
    exact Or.inr (congrArg some (hreported hzero hfew))

/-- **What saving a result in a folder can do.**  It is saved, or the file of the result does not
hold its text. -/
theorem isSaving_saveIn (hdir : args.saveDir = some (some folder))
    (hjournal : session.journal.IsNamed Home.logName) :
    IsSaving environment args settings result session
      (saveIn folder environment args settings result session) := by
  generalize hsaved : saveIn folder environment args settings result session = saved
  have hunfold := hsaved
  rw [saveIn, show folder.child (resultFileName args.source.name environment.now)
    = resultPath environment args folder from rfl] at hunfold
  cases hsave : saveText settings.encoding result.text (resultPath environment args folder)
    session.disk with
  | mk outcome left =>
    rw [hsave] at hunfold
    -- the session goes on with the disk that saving has left
    let stopped : Session := { session with disk := left }
    have hstopped : stopped.journal.IsNamed Home.logName := hjournal
    cases outcome with
    | ok done =>
      obtain rfl : (none, (stopped.noteOwn environment.now .info ("Result saved. path=".toList
          ++ (resultPath environment args folder).text)).say ("saved: ".toList
            ++ (resultPath environment args folder).text)) = saved := hunfold
      obtain ⟨-, hholds⟩ := saveIn_eq_none hjournal hsaved
      refine ⟨rfl, rfl, ⟨_, List.append_assoc _ _ _, .saved hdir⟩, ?_, by simp, ?_⟩
      · exact ⟨fun _ => Or.inr ⟨folder, hdir, hholds⟩, fun _ => rfl⟩
      · exact fun other hother hzero hfew => Or.inl rfl
    | error fault =>
      have hlost := saveText_eq_error hsave
      cases fault with
      | reported message =>
        obtain rfl : (some (.exit 1), (stopped.noteOwn environment.now .error
            ("Saving result failed: ".toList ++ message)).say ("error: could not save ".toList
              ++ (resultPath environment args folder).text ++ ": ".toList ++ message)) = saved :=
          hunfold
        refine isSaving_of_lost hdir ?_ ?_ ?_ (.unsaved hdir message) (by simp) ?_ ?_
        · rfl
        · rfl
        · exact List.append_assoc _ _ _
        · -- what is written into the journal makes no file of the result
          intro content hencode hafter
          have hapart := endsApart_resultFile folder args.source.name environment.now
          exact hlost content hencode ((Session.read_note hapart hstopped _ _).mp hafter)
        · exact fun hzero hfew => rfl
      | escaped e =>
        obtain rfl : (some (.escaped (.save e)), stopped) = saved := hunfold
        have hclosing : Closing environment args (.escaped (.save e)) [] :=
          .brokenOff (by simp [hdir]) _
        refine isSaving_of_lost hdir ?_ ?_ ?_ hclosing (by simp) hlost ?_
        · rfl
        · rfl
        · exact (List.append_nil _).symm
        · intro hzero hfew
          obtain ⟨message, hmessage⟩ := saveText_reported hsave hzero hfew
          exact absurd hmessage (by simp)

/-- **What saving a result can do**, as the arguments ask. -/
theorem isSaving_saveResult (hjournal : session.journal.IsNamed Home.logName) :
    IsSaving environment args settings result session
      (saveResult environment args settings result session) := by
  rw [saveResult]
  cases hdir : args.saveDir with
  | none =>
    refine ⟨rfl, rfl, ⟨[], (List.append_nil _).symm, .unasked hdir⟩, ?_, by simp, ?_⟩
    · exact ⟨fun _ => Or.inl hdir, fun _ => rfl⟩
    · exact fun folder hfolder => absurd (hdir.symm.trans hfolder) (by simp)
  | some place =>
    cases place with
    | none =>
      refine ⟨rfl, rfl, ⟨[], (List.append_nil _).symm, .brokenOff (by simp [hdir]) _⟩, ?_,
        by simp, ?_⟩
      · simp [hdir]
      · exact fun folder hfolder => absurd (hdir.symm.trans hfolder) (by simp)
    | some folder => exact isSaving_saveIn hdir hjournal

/-! ## Printing -/

/-- What is said of a result: the rules that were skipped, each in a line of its own, and the
counts. -/
def reportText (result : Result) : Text :=
  (result.skipped.flatMap fun rule => skippedLine rule ++ ['\n'])
    ++ (countsText result ++ ['\n'])

/-- **The whole result is printed as output**, and what is said of it as messages. -/
theorem printed_printResult (format : OutputFormat) (result : Result) (session : Session) :
    (printResult format result session).out = session.out ++ format.print result.segments ∧
      (printResult format result session).err = session.err ++ reportText result := by
  have hsay : ∀ (lines : List Text) (session : Session),
      (lines.foldl Session.say session).out = session.out ∧
        (lines.foldl Session.say session).err
          = session.err ++ lines.flatMap fun line => line ++ ['\n'] := by
    intro lines
    induction lines with
    | nil => exact fun session => ⟨rfl, (List.append_nil session.err).symm⟩
    | cons line lines ih =>
      intro session
      obtain ⟨hout, herr⟩ := ih (session.say line)
      refine ⟨hout, herr.trans ?_⟩
      simp [Session.say]
  obtain ⟨hout, herr⟩ := hsay (result.skipped.map skippedLine) session
  constructor
  · show ((result.skipped.map skippedLine).foldl Session.say session).out ++ _ = _
    rw [hout]
  · show ((result.skipped.map skippedLine).foldl Session.say session).err
      ++ countsText result ++ ['\n'] = _
    rw [herr, reportText, List.flatMap_map, List.append_assoc, List.append_assoc]

/-! ## The end of a run -/

/-- A run has come to an end with its whole result. -/
structure IsComplete (environment : Environment) (course : Course) (outcome : Ending × Session) :
    Prop where
  /-- The result is that of the evaluation. -/
  result : evaluateBy environment.sweeper course.source course.rules = .ok course.result
  /-- The rules that were skipped stand in the order of the rule list. -/
  skipped : course.source ≠ [] →
    course.result.skipped = (Rule.ofList course.rules).filter Rule.isVoid
  /-- The whole result is printed. -/
  out : outcome.2.out
    = (course.args.format.getD course.settings.outputFormat).print course.result.segments
  /-- The messages are about the skipped rules, the counts, and what was saved. -/
  err : ∃ last, outcome.2.err = reportText course.result ++ last ∧
    Closing environment course.args outcome.1 last
  /-- The run ends with the exit code zero exactly if the result was saved as asked. -/
  ending : outcome.1 = .exit 0 ↔ course.args.saveDir = none ∨
    ∃ folder, course.args.saveDir = some (some folder) ∧
      HoldsResult outcome.2.disk (resultPath environment course.args folder)
        course.settings.encoding course.result
  /-- A run that cannot save its result ends with the exit code one, if the path to the folder is
  proper and not too long for all its folders to be made. -/
  reported : ∀ folder, course.args.saveDir = some (some folder) → folder.hasZero = false →
    folder.parts.length < Disk.missingLimit → outcome.1 = .exit 0 ∨ outcome.1 = .exit 1

variable {words : List Text} {course : Course}

namespace Course.Follows

variable (h : course.Follows environment words disk)
include h

/-- The rules that were skipped are those that have nothing to search for, in their order. -/
theorem skipped_eq (hsource : course.source ≠ []) :
    course.result.skipped = (Rule.ofList course.rules).filter Rule.isVoid := by
  have hresult := h.evaluateBy_eq
  rw [evaluateBy, if_neg (by rwa [List.isEmpty_iff])] at hresult
  cases hset : RuleSet.ofList course.rules with
  | error e => simp [hset] at hresult
  | ok set =>
    obtain ⟨-, hclosed⟩ := RuleSet.ofRules_eq_ok_iff.mp hset
    rw [hset] at hresult
    replace hresult : set.apply environment.sweeper course.source = .ok course.result := hresult
    rw [RuleSet.apply] at hresult
    split at hresult
    · exact absurd hresult (by simp)
    · rw [← Except.ok.inj hresult, Result.skipped_assemble, hclosed]

/-- The source was read, so its path holds no zero character. -/
theorem hasZero_source : course.args.source.hasZero = false := by
  obtain ⟨content, hlook, -⟩ := InputFile.read_eq_ok_iff.mp h.read_source
  exact (Disk.read_eq_ok_iff.mp (Disk.read_of_look hlook)).1

/-- The path to the file of the result holds no zero character, if the folder does not. -/
theorem hasZero_resultPath {folder : Path} (hfolder : folder.hasZero = false) :
    (resultPath environment course.args folder).hasZero = false := by
  have hname := zero_notMem_resultFileName (Path.zero_notMem_name h.hasZero_source) environment.now
  rw [resultPath, Path.hasZero_child, hfolder, Bool.false_or, ← Bool.not_eq_true,
    List.contains_iff_mem]
  exact hname

/-- **A run that takes a course comes to an end with its whole result.** -/
theorem isComplete : IsComplete environment course (run environment words disk) := by
  have hnamed := h.isNamed
  obtain ⟨hout, herr⟩ := course.printed_evaluation environment disk
  obtain ⟨hprintedOut, hprintedErr⟩ :=
    printed_printResult (course.args.format.getD course.settings.outputFormat) course.result
      (course.evaluation environment disk).2
  obtain ⟨-, hjournal⟩ :=
    printResult_eq (course.args.format.getD course.settings.outputFormat) course.result
      (course.evaluation environment disk).2
  rw [hout, List.nil_append] at hprintedOut
  rw [herr, List.nil_append] at hprintedErr
  rw [← hjournal] at hnamed
  rw [h.run_eq, reportResult]
  generalize printResult (course.args.format.getD course.settings.outputFormat) course.result
    (course.evaluation environment disk).2 = printed at hprintedOut hprintedErr hnamed
  have hsaving : IsSaving environment course.args course.settings course.result printed
    (saveResult environment course.args course.settings course.result printed) :=
    isSaving_saveResult hnamed
  split
  · next ending final hsave =>
    rw [hsave] at hsaving
    refine ⟨h.evaluateBy_eq, h.skipped_eq, hsaving.out.trans hprintedOut, ?_, ?_, ?_⟩
    · obtain ⟨last, hlast, hclosing⟩ := hsaving.err
      exact ⟨last, by rw [hlast, hprintedErr], hclosing⟩
    · rw [← hsaving.done]
      constructor
      · exact fun hzero => absurd (congrArg some hzero) hsaving.ending
      · exact fun hnone => absurd hnone (by simp)
    · intro folder hdir hzero hfew
      rcases hsaving.reported folder hdir (h.hasZero_resultPath hzero) hfew with hnone | hexit
      · exact absurd hnone (by simp)
      · exact Or.inr (Option.some.inj hexit)
  · next final hsave =>
    rw [hsave] at hsaving
    rw [← hsaving.journal] at hnamed
    refine ⟨h.evaluateBy_eq, h.skipped_eq, hsaving.out.trans hprintedOut, ?_, ?_, ?_⟩
    · obtain ⟨last, hlast, hclosing⟩ := hsaving.err
      exact ⟨last, by rw [← hprintedErr, ← hlast]; rfl, hclosing⟩
    · refine ⟨fun _ => ?_, fun _ => rfl⟩
      -- the file of the result is still there when the journal has been written
      refine (hsaving.done.mp rfl).imp_right ?_
      rintro ⟨folder, hdir, content, hencode, hcontent⟩
      have hapart := endsApart_resultFile folder course.args.source.name environment.now
      exact ⟨folder, hdir, content, hencode, (Session.read_note hapart hnamed _ _).mpr hcontent⟩
    · exact fun folder hdir hzero hfew => Or.inl rfl

end Course.Follows

/-- A run that is described as it is: its words can be read, and its journal stays below the size at
which its file would be put aside (`Journal.rotationSize`), which would change other files too.  A
journal is only ever added to, so its size at the end tells. -/
structure IsDescribed (environment : Environment) (words : List Text) (args : Arguments)
    (disk : Disk) : Prop where
  /-- The words can be read. -/
  read : Arguments.ofWords words = .ok args
  /-- The file of the journal stays small. -/
  journal : ∀ content ∈ (run environment words disk).2.disk.file? environment.home.journal,
    content.length < Journal.rotationSize

/-- **All or nothing.**  A run whose words can be read, whose journal does not grow too large, and
which does not come to a result since its journal cannot be set up, its settings cannot be loaded, a
file cannot be read or the rules cannot be evaluated, fails.  Then it has printed no output, and it
has changed nothing but the files of its journal and its settings and the folders on the way to them.

A run that comes to a result prints the whole of it as output, and a line for every rule that was
skipped and then the counts as messages.  It ends with the exit code zero exactly if nothing was to
be saved, or the file of the result holds its text; and if that could not be saved, with the exit
code one, unless the place of its folder is left blank or too many folders on the way are missing. -/
theorem all_or_nothing (h : IsDescribed environment words args disk) :
    ((¬ ∃ course : Course, course.Follows environment words disk) →
      (run environment words disk).1.IsFailure ∧
        IsSilent environment args disk (run environment words disk).2) ∧
    ∀ course : Course, course.Follows environment words disk →
      IsComplete environment course (run environment words disk) := by
  refine ⟨?_, fun course hfollows => hfollows.isComplete⟩
  intro hnone
  rcases follows_or_silent h.read with ⟨course, -, hfollows⟩ | hsilent
  · exact absurd ⟨course, hfollows⟩ hnone
  · exact hsilent

/-- A result is printed although it cannot be saved, since a file stands in the place of the folder;
and where a file stands in the place of the folder for journals, nothing is printed. -/
theorem all_or_nothing_unsaved :
    let environment : Environment := ⟨⟨⟨.root, []⟩⟩, ⟨2024, 1, 2, 3, 4, 5⟩, .steady⟩
    let words := ["s.txt".toList, "r.txt".toList, "--save-dir".toList, "s.txt".toList]
    let source : Path := ⟨.here, ["s.txt".toList]⟩
    let args : Arguments :=
      ⟨source, some ⟨.here, ["r.txt".toList]⟩, none, none, some (some source), false⟩
    let nodes : List (Place × Node) := [(["s.txt".toList], .file (Utf8.encode "a b".toList)),
      (["r.txt".toList], .file (Utf8.encode "[or]///x\nb///c".toList))]
    let course : Course :=
      { args := args
        settings := .default
        source := "a b".toList
        rules := "[or]///x\nb///c".toList
        result := ⟨[⟨.kept, "a ".toList⟩, ⟨.replaced, "c".toList⟩], 0, 1,
          [⟨"[or]".toList, .text, .replace "x".toList false, 1, "[or]///x".toList⟩]⟩ }
    let outcome := run environment words ⟨[], nodes⟩
    let blocked : Disk := ⟨[], (["logs".toList], .file []) :: nodes⟩
    Arguments.ofWords words = .ok args ∧ course.Follows environment words ⟨[], nodes⟩ ∧
      outcome.1 = .exit 1 ∧ outcome.2.out = "a c".toList ∧
      course.result.skipped = (Rule.ofList course.rules).filter Rule.isVoid ∧
      ¬ HoldsResult outcome.2.disk (resultPath environment args source) "utf-8".toList
        course.result ∧
      (run environment words blocked).1.IsFailure ∧
      (run environment words blocked).2.out = [] := by
  intro environment words source args nodes course outcome blocked
  have hargs : Arguments.ofWords words = .ok args := by decide +kernel
  have hfollows : course.Follows environment words ⟨[], nodes⟩ := by decide +kernel
  have hexit : outcome.1 = .exit 1 := by decide +kernel
  have hdescribed : IsDescribed environment words args ⟨[], nodes⟩ := ⟨hargs, by decide +kernel⟩
  have hblockedDescribed : IsDescribed environment words args blocked := ⟨hargs, by decide +kernel⟩
  obtain ⟨-, hcomplete⟩ := all_or_nothing hdescribed
  obtain ⟨hnothing, -⟩ := all_or_nothing hblockedDescribed
  have hblocked : ¬ ∃ course : Course, course.Follows environment words blocked := by
    rintro ⟨other, hother⟩
    have hsame : other.args = args := Except.ok.inj (hother.words.symm.trans hargs)
    have hattached := hother.attached
    rw [Course.attached, hsame] at hattached
    exact absurd hattached (by decide +kernel)
  obtain ⟨hfailure, hsilent⟩ := hnothing hblocked
  have hdone := hcomplete course hfollows
  refine ⟨hargs, hfollows, hexit, hdone.out, hdone.skipped (by decide), ?_, hfailure, hsilent.out⟩
  intro hholds
  have hzero := hdone.ending.mpr (Or.inr ⟨source, rfl, hholds⟩)
  rw [show (run environment words ⟨[], nodes⟩).1 = .exit 1 from hexit] at hzero
  exact absurd hzero (by decide)

/-- The settings can be loaded, both files can be read and the rules can be evaluated; and a run for
which the place of the folder for the result file is left blank prints its whole result, but then it
ends with no exit code and does not say that it has saved nothing. -/
theorem run_blank_folder :
    let environment : Environment := ⟨⟨⟨.root, []⟩⟩, ⟨2024, 1, 2, 3, 4, 5⟩, .steady⟩
    let words := ["s.txt".toList, "r.txt".toList]
    let line : Bytes := Utf8.encode "a\n".toList
    let disk : Disk := ⟨[], [(["s.txt".toList], .file line), (["r.txt".toList], .file line)]⟩
    let outcome := run environment (words ++ ["--save-dir=--".toList]) disk
    (Arguments.ofWords (words ++ ["--save-dir=--".toList])).isOk ∧
      (Settings.load environment.home.settings disk).1 = .ok .default ∧
      (∀ name ∈ words, InputFile.read disk ⟨.here, [name]⟩ ⟨51200, "utf-8".toList, true⟩
        = .ok "a\n".toList) ∧
      evaluate "a\n".toList "a\n".toList
        = .ok ⟨[⟨.added, "a".toList⟩, ⟨.kept, "\n".toList⟩], 1, 0, []⟩ ∧
      outcome.1 = .escaped .blankFolder ∧ outcome.2.out = "a\n".toList ∧
      outcome.2.err = "matches=1 replacements=0\n".toList := by
  decide +kernel

end CommandLine

end RuleSweep
