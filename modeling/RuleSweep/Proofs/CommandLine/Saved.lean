/-
# What a run saves

A run writes its result in the encoding in which it has read the source and the rule list.  Every
character of the result is one of theirs, so the encoding can write it; and as neither of them
holds a carriage return, the saved file gives back just the text of the result:
`saved_of_follows`.

The name of the saved file ends in `.txt`.  So it is the name of a text file, and it is not the
name of the journal's file, into which the run goes on writing after it has saved the result.
-/
import RuleSweep.Proofs.CommandLine.Course
import RuleSweep.Proofs.Evaluation.Provenance
import RuleSweep.Proofs.InputFile

namespace RuleSweep

/-! ## The name of the saved file -/

/-- The path to a file in a folder ends in the name of the file. -/
theorem Path.getLast?_child (folder : Path) (name : Text) :
    (folder.child name).parts.getLast? = some name :=
  List.getLast?_concat

/-- The name of a result file ends in `.txt`. -/
theorem txt_isSuffix_resultFileName (source : Text) (now : Moment) :
    ".txt".toList <:+ resultFileName source now :=
  List.suffix_append _ _

/-- The name of a result file is that of a text file. -/
theorem isTextName_resultFileName (source : Text) (now : Moment) :
    InputFile.isTextName (resultFileName source now) = true := by
  have hsmall : ".txt".toList.map InputFile.smallChar = ".txt".toList := by decide
  have hsuffix := (txt_isSuffix_resultFileName source now).map InputFile.smallChar
  rw [hsmall] at hsuffix
  rw [InputFile.isTextName, List.any_eq_true]
  exact ⟨".txt", by simp [InputFile.textEndings], List.isSuffixOf_iff_suffix.mpr hsuffix⟩

/-- A result file has another name than the file of the journal. -/
theorem endsApart_resultFile (folder : Path) (source : Text) (now : Moment) :
    (folder.child (resultFileName source now)).EndsApart Home.logName := by
  have hsuffix := txt_isSuffix_resultFileName source now
  refine ⟨resultFileName source now, folder.getLast?_child _, ?_, ?_⟩
  · intro hupward
    rw [hupward] at hsuffix
    exact absurd hsuffix (by decide)
  · intro hlog
    rw [hlog] at hsuffix
    exact absurd hsuffix (by decide)

namespace CommandLine

/-! ## Saving -/

variable {environment : Environment} {args : Arguments} {settings : Settings} {result : Result}
  {session final : Session} {folder : Path}

/-- A text that was saved was written in the encoding, and can be read again. -/
theorem saveText_eq_ok {encoding text : Text} {path : Path} {disk saved : Disk}
    (h : saveText encoding text path disk = (.ok (), saved)) :
    ∃ content, encodeBy encoding text = .ok content ∧ saved.read path = .ok content := by
  rw [saveText] at h
  split at h
  · exact absurd h (by simp)
  · next emptied _ =>
    split at h
    · exact absurd h (by simp)
    · next content hencode =>
      split at h
      · exact absurd h (by simp)
      · next written hwrite =>
        rw [Prod.mk.injEq] at h
        rw [← h.2]
        exact ⟨content, hencode, Disk.read_write hwrite⟩

/-- The file of a result that was saved holds the text of the result in the encoding. -/
theorem saveIn_eq_none (hjournal : session.journal.IsNamed Home.logName)
    (h : saveIn folder environment args settings result session = (none, final)) :
    final.journal = session.journal ∧
      ∃ content, encodeBy settings.encoding result.text = .ok content ∧
        final.disk.read (folder.child (resultFileName args.source.name environment.now))
          = .ok content := by
  rw [saveIn] at h
  split at h
  · exact absurd h (by simp)
  · exact absurd h (by simp)
  · next saved hsave =>
    obtain ⟨content, hencode, hread⟩ := saveText_eq_ok hsave
    rw [Prod.mk.injEq] at h
    rw [← h.2]
    refine ⟨rfl, content, hencode, ?_⟩
    have hapart := endsApart_resultFile folder args.source.name environment.now
    refine (Session.read_note hapart ?_ _ _).mpr hread
    exact hjournal

/-- Printing changes neither the disk nor the journal. -/
theorem printResult_eq (format : OutputFormat) (result : Result) (session : Session) :
    (printResult format result session).disk = session.disk ∧
      (printResult format result session).journal = session.journal := by
  have hsay : ∀ (lines : List Text) (session : Session),
      (lines.foldl Session.say session).disk = session.disk ∧
        (lines.foldl Session.say session).journal = session.journal := by
    intro lines
    induction lines with
    | nil => exact fun session => ⟨rfl, rfl⟩
    | cons line lines ih => exact fun session => ih (session.say line)
  exact hsay (result.skipped.map skippedLine) session

/-- If a result is to be saved and all goes well, its file holds its text in the encoding. -/
theorem read_of_reportResult (hdir : args.saveDir = some (some folder))
    (hjournal : session.journal.IsNamed Home.logName)
    (h : reportResult environment args settings result session = (.exit 0, final)) :
    ∃ content, encodeBy settings.encoding result.text = .ok content ∧
      final.disk.read (folder.child (resultFileName args.source.name environment.now))
        = .ok content := by
  rw [reportResult] at h
  generalize hprinted : printResult (args.format.getD settings.outputFormat) result session
    = printed at h
  have hnamed : printed.journal.IsNamed Home.logName := by
    rw [← hprinted, (printResult_eq _ result session).2]
    exact hjournal
  simp only [saveResult, hdir] at h
  split at h
  · next ending left hsave =>
    -- a run that could not save its result does not end with zero
    rw [Prod.mk.injEq] at h
    rw [saveIn, h.1] at hsave
    split at hsave
    · exact absurd hsave (by simp)
    · exact absurd hsave (by simp)
    · exact absurd hsave (by simp)
  · next saved hsave =>
    obtain ⟨hsame, content, hencode, hread⟩ := saveIn_eq_none hnamed hsave
    rw [Prod.mk.injEq] at h
    rw [← h.2]
    refine ⟨content, hencode, ?_⟩
    have hapart := endsApart_resultFile folder args.source.name environment.now
    rw [← hsame] at hnamed
    exact (Session.read_note hapart hnamed _ _).mpr hread

/-! ## The way back -/

/-- **What a run saves is the text of its result**, whose characters are all from the source and
from the rule list.  The encoding can always write it; and the saved file, read in this encoding,
gives back the text as it is. -/
theorem saved_of_follows {home : Home} {now : Moment} {words : List Text} {disk : Disk}
    {course : Course} (h : course.Follows ⟨home, now, .steady⟩ words disk) :
    (∀ c ∈ course.result.text, c ∈ course.source ∨ c ∈ course.rules) ∧
    ∃ charset content, Encoding.ofName? course.settings.encoding = some (.charset charset) ∧
      charset.encode course.result.text = .ok content ∧
      encodeBy course.settings.encoding course.result.text = .ok content ∧
      ∀ folder final, course.args.saveDir = some (some folder) →
        run ⟨home, now, .steady⟩ words disk = (.exit 0, final) →
        let target := folder.child (resultFileName course.args.source.name now)
        final.disk.read target = .ok content ∧
        ∀ (limit : Int) (textName : Bool), content.length ≤ limit →
          InputFile.read final.disk target ⟨limit, course.settings.encoding, textName⟩
            = .ok course.result.text := by
  have hmem : ∀ c ∈ course.result.text, c ∈ course.source ∨ c ∈ course.rules :=
    fun c => mem_of_mem_text (h.evaluate_eq rfl)
  obtain ⟨hzero, charset, hname, hsource, hcovers⟩ := InputFile.of_read h.read_source
  obtain ⟨path, -, hread⟩ := h.read_rules
  obtain ⟨-, other, hother, hrules, hcoversRules⟩ := InputFile.of_read hread
  -- both files are read in the same encoding
  have hsame : other = charset := by
    rw [hname, Option.some.injEq, Encoding.charset.injEq] at hother
    exact hother.symm
  rw [hsame] at hcoversRules
  have hreturn : '\r' ∉ course.result.text := by
    intro hmemReturn
    rcases hmem '\r' hmemReturn with hin | hin
    · exact hsource hin
    · exact hrules hin
  obtain ⟨content, hencode⟩ : ∃ content, charset.encode course.result.text = .ok content := by
    rw [Charset.exists_encode_iff]
    intro c hc
    rcases hmem c hc with hin | hin
    · exact hcovers c hin
    · exact hcoversRules c hin
  have hencodeBy : encodeBy course.settings.encoding course.result.text = .ok content := by
    rw [encodeBy, hname]
    exact hencode
  refine ⟨hmem, charset, content, hname, hencode, hencodeBy, ?_⟩
  intro folder final hdir hrun
  rw [h.run_eq] at hrun
  obtain ⟨saved, hsaved, hfile⟩ := read_of_reportResult hdir h.isNamed hrun
  rw [hencodeBy, Except.ok.injEq] at hsaved
  rw [← hsaved] at hfile
  refine ⟨hfile, ?_⟩
  intro limit textName hlimit
  have htextName : InputFile.isTextName
      (folder.child (resultFileName course.args.source.name now)).name = true := by
    rw [Path.name, Path.getLast?_child]
    exact isTextName_resultFileName _ _
  exact InputFile.read_of_encode hfile hzero hname hreturn hencode hlimit fun _ => htextName

/-- A source in UTF-16 that begins with the higher byte, and ends in a carriage return and a
newline.  The result begins with the lower byte and ends in a newline. -/
theorem saved_of_follows_utf16 :
    let environment : Environment := ⟨⟨⟨.root, []⟩⟩, ⟨2024, 1, 2, 3, 4, 5⟩, .steady⟩
    let words := ["s.txt".toList, "r.txt".toList, "--save-dir".toList, "out".toList]
    let settings : Settings := { encoding := "utf-16".toList }
    let disk : Disk := ⟨[], [(["config.json".toList], .file (Utf8.encode settings.document)),
      (["s.txt".toList], .file [0xFE, 0xFF, 0x00, 0xE9, 0x00, 0x0D, 0x00, 0x0A]),
      (["r.txt".toList], .file (Utf16.encodeMarked "\u00e9///\u00fc".toList))]⟩
    let folder : Path := ⟨.here, ["out".toList]⟩
    let course : Course :=
      { args := ⟨⟨.here, ["s.txt".toList]⟩, some ⟨.here, ["r.txt".toList]⟩, none, none,
          some (some folder), false⟩
        settings := settings
        source := "\u00e9\n".toList
        rules := "\u00e9///\u00fc".toList
        result := ⟨[⟨.replaced, "\u00fc".toList⟩, ⟨.kept, "\n".toList⟩], 0, 1, []⟩ }
    let final := (run environment words disk).2
    let target := folder.child "TMS-s_240102-0304.txt".toList
    course.Follows environment words disk ∧ run environment words disk = (.exit 0, final) ∧
      final.disk.read target = .ok [0xFF, 0xFE, 0xFC, 0x00, 0x0A, 0x00] ∧
      InputFile.read final.disk target ⟨6, "utf-16".toList, true⟩ = .ok "\u00fc\n".toList := by
  intro environment words settings disk folder course final target
  obtain ⟨hcourse, hexit, hread⟩ : course.Follows environment words disk ∧
      (run environment words disk).1 = .exit 0 ∧
      final.disk.read target = .ok [0xFF, 0xFE, 0xFC, 0x00, 0x0A, 0x00] := by
    decide +kernel
  have hrun : run environment words disk = (.exit 0, final) := Prod.ext hexit rfl
  have htarget : folder.child (resultFileName course.args.source.name environment.now)
      = target := by
    decide +kernel
  obtain ⟨-, -, content, -, -, -, hsaved⟩ := saved_of_follows hcourse
  obtain ⟨hcontent, hback⟩ := hsaved folder final rfl hrun
  rw [htarget] at hcontent hback
  rw [hread, Except.ok.injEq] at hcontent
  refine ⟨hcourse, hrun, hread, hback 6 true ?_⟩
  rw [← hcontent]
  decide

end CommandLine

end RuleSweep
