/-
# Runs that replace nothing

Where no rule replaces, the result is the source, with every segment as it is, each line with
its own ending.  But the source is not the text of the source file: reading a file makes plain
newlines, and saving writes what it is given.  So the bytes of the saved file are those of the
source file exactly if these stand for a text without carriage returns: `saved_eq_source_iff`.
-/
import RuleSweep.Proofs.CommandLine.Saved
import RuleSweep.Proofs.Sweep.Marks

namespace RuleSweep

/-- Where no rule of a list replaces, the result has the text of the source. -/
theorem text_eq_of_marks {source list : Text} {result : Result}
    (h : evaluate source list = .ok result)
    (hmarks : ∀ rule ∈ Rule.ofList list, rule.replaces = false) : result.text = source := by
  obtain ⟨hsource, htext⟩ | ⟨set, hset, htext⟩ := text_of_evaluate h
  · rw [htext, hsource]
  · rw [htext]
    apply textOf_sweep_of_marks (RuleSet.solid_of_ofList hset)
    intro matcher hmatcher
    obtain ⟨rule, hrule, hofRule⟩ := RuleSet.exists_rule_of_ofRules hset matcher hmatcher
    rw [(Matcher.of_ofRule hofRule).1]
    exact hmarks rule hrule

/-- A text that was read in UTF-8 is that of the bytes, with plain newlines. -/
theorem InputFile.exists_decode_of_read {disk : Disk} {path : Path} {demands : Demands}
    {text : Text} (hutf8 : Encoding.ofName? demands.encoding = some (.charset .utf8))
    (h : read disk path demands = .ok text) :
    ∃ bytes t, disk.read path = .ok bytes ∧ Utf8.decode bytes = .ok t ∧
      text = t.plainNewlines := by
  obtain ⟨bytes, hlook, hcontent⟩ := read_eq_ok_iff.mp h
  obtain ⟨-, -, hdecode⟩ := readContent_eq_ok_iff.mp hcontent
  obtain ⟨-, charset, hname, hread⟩ := decode_eq_ok_iff.mp hdecode
  rw [hutf8, Option.some.injEq, Encoding.charset.injEq] at hname
  rw [← hname, Charset.read, Charset.decode] at hread
  cases ht : Utf8.decode bytes with
  | error e =>
    rw [ht] at hread
    exact absurd hread (by simp [Except.mapError, Except.map])
  | ok t =>
    rw [ht, Except.mapError, Except.map, Except.ok.injEq] at hread
    exact ⟨bytes, t, Disk.read_of_look hlook, ht, hread.symm⟩

namespace CommandLine

/-- **What is saved when nothing is replaced**: the text of the source file with plain newlines.
These are the bytes of the source file exactly if it holds no carriage return. -/
theorem saved_eq_source_iff {home : Home} {now : Moment} {words : List Text} {disk : Disk}
    {course : Course} {folder : Path} {final : Session}
    (h : course.Follows ⟨home, now, .steady⟩ words disk)
    (hutf8 : Encoding.ofName? course.settings.encoding = some (.charset .utf8))
    (hmarks : ∀ rule ∈ Rule.ofList course.rules, rule.replaces = false)
    (hdir : course.args.saveDir = some (some folder))
    (hrun : run ⟨home, now, .steady⟩ words disk = (.exit 0, final)) :
    let target := folder.child (resultFileName course.args.source.name now)
    ∃ bytes t,
      (course.loaded ⟨home, now, .steady⟩ disk).disk.read course.args.source = .ok bytes ∧
      Utf8.decode bytes = .ok t ∧
      final.disk.read target = .ok (Utf8.encode t.plainNewlines) ∧
      (final.disk.read target = .ok bytes ↔ '\r' ∉ t) := by
  intro target
  obtain ⟨bytes, t, hread, hdecode, hsource⟩ :=
    InputFile.exists_decode_of_read hutf8 h.read_source
  have htext : course.result.text = t.plainNewlines := by
    rw [text_eq_of_marks (h.evaluate_eq rfl) hmarks, hsource]
  rw [h.run_eq] at hrun
  obtain ⟨content, hencode, hsaved⟩ := read_of_reportResult hdir h.isNamed hrun
  rw [encodeBy, hutf8, htext] at hencode
  have hcontent : Utf8.encode t.plainNewlines = content := Except.ok.inj hencode
  rw [← hcontent] at hsaved
  refine ⟨bytes, t, hread, hdecode, hsaved, ?_⟩
  rw [← Text.plainNewlines_eq_self_iff, hsaved, Except.ok.injEq]
  constructor
  · intro hbytes
    -- the saved bytes are read as the saved text
    rw [← hbytes, Utf8.decode_encode, Except.ok.injEq] at hdecode
    exact hdecode
  · intro hplain
    rw [hplain, Utf8.encode_of_decode hdecode]

/-- A source with newlines only, in which a rule marks a letter, without any settings: the
saved file has the bytes of the source file. -/
theorem saved_eq_source_iff_newlines :
    let environment : Environment := ⟨⟨⟨.root, []⟩⟩, ⟨2024, 1, 2, 3, 4, 5⟩, .steady⟩
    let words := ["s.txt".toList, "r.txt".toList, "--save-dir".toList, "out".toList]
    let bytes := Utf8.encode "a\n\u00e9".toList
    let disk : Disk := ⟨[], [(["s.txt".toList], .file bytes),
      (["r.txt".toList], .file (Utf8.encode "\u00e9".toList))]⟩
    let folder : Path := ⟨.here, ["out".toList]⟩
    let course : Course :=
      { args := ⟨⟨.here, ["s.txt".toList]⟩, some ⟨.here, ["r.txt".toList]⟩, none, none,
          some (some folder), false⟩
        settings := .default
        source := "a\n\u00e9".toList
        rules := "\u00e9".toList
        result := ⟨[⟨.kept, "a\n".toList⟩, ⟨.added, "\u00e9".toList⟩], 1, 0, []⟩ }
    let final := (run environment words disk).2
    course.Follows environment words disk ∧
      (∀ rule ∈ Rule.ofList course.rules, rule.replaces = false) ∧
      run environment words disk = (.exit 0, final) ∧
      (course.loaded environment disk).disk.read course.args.source = .ok bytes ∧
      final.disk.read (folder.child "TMS-s_240102-0304.txt".toList) = .ok bytes := by
  intro environment words bytes disk folder course final
  obtain ⟨hcourse, hexit, hloaded⟩ : course.Follows environment words disk ∧
      (run environment words disk).1 = .exit 0 ∧
      (course.loaded environment disk).disk.read course.args.source = .ok bytes := by
    decide +kernel
  have hmarks : ∀ rule ∈ Rule.ofList course.rules, rule.replaces = false := by decide +kernel
  have hrun : run environment words disk = (.exit 0, final) := Prod.ext hexit rfl
  obtain ⟨found, t, hread, hdecode, -, hiff⟩ :=
    saved_eq_source_iff hcourse (by decide +kernel) hmarks rfl hrun
  rw [hloaded, Except.ok.injEq] at hread
  rw [← hread, Utf8.decode_encode, Except.ok.injEq] at hdecode
  rw [← hread, ← hdecode] at hiff
  exact ⟨hcourse, hmarks, hrun, hloaded, hiff.mpr (by decide)⟩

/-- A source that ends in a carriage return and a newline, an empty rule list, and no settings: the
carriage return is not saved. -/
theorem read_run_carriage_return :
    let environment : Environment := ⟨⟨⟨.root, []⟩⟩, ⟨2024, 1, 2, 3, 4, 5⟩, .steady⟩
    let words := ["s.txt".toList, "r.txt".toList, "--save-dir".toList, "out".toList]
    let disk : Disk := ⟨[], [(["s.txt".toList], .file [0x61, 0x0D, 0x0A]),
      (["r.txt".toList], .file [])]⟩
    let source : Path := ⟨.here, ["s.txt".toList]⟩
    let target : Path := ⟨.here, ["out".toList, "TMS-s_240102-0304.txt".toList]⟩
    let outcome := run environment words disk
    Utf8.decode [0x61, 0x0D, 0x0A] = .ok "a\r\n".toList ∧ Rule.ofList [] = [] ∧
      outcome.1 = .exit 0 ∧ outcome.2.disk.read source = .ok [0x61, 0x0D, 0x0A] ∧
      outcome.2.disk.read target = .ok [0x61, 0x0A] := by
  decide +kernel

end CommandLine

end RuleSweep
