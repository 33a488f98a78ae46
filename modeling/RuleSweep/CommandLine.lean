/-
# Runs of the program

A run reads the command line, sets up the journal, reads the settings, the source and
the rule list, evaluates the rules, prints the result and saves it if that is asked for.
Nothing is printed before the evaluation has succeeded.
-/
import RuleSweep.CommandLine.Arguments
import RuleSweep.Evaluation
import RuleSweep.Journal
import RuleSweep.Output.FileName
import RuleSweep.Settings

namespace RuleSweep

/-! ## The folder of the program -/

/-- The places of the program's own files. -/
structure Home where
  /-- The folder of the program. -/
  folder : Path
  deriving DecidableEq, Repr

namespace Home

/-- The folder of a program that is itself a file. -/
def ofProgram (current : Place) (program : Path) : Except DiskFault Home :=
  if program.hasZero then .error .zeroInPath
  else .ok ⟨⟨.root, (program.absolute current).parts.dropLast⟩⟩

/-- The folder for journals. -/
def journals (home : Home) : Path :=
  home.folder.child "logs".toList

/-- The file with the settings. -/
def settings (home : Home) : Path :=
  home.folder.child "config.json".toList

/-- The file of the journal. -/
def journal (home : Home) : Path :=
  home.journals.child "text_multi_search.log".toList

end Home

namespace CommandLine

/-! ## Sessions -/

/-- What a run works with that does not change. -/
structure Environment where
  /-- The places of the program's own files. -/
  home : Home
  /-- The moment of the run. -/
  now : Moment
  /-- The way to sweep a source. -/
  sweeper : Sweeper

/-- What a run has done so far. -/
structure Session where
  /-- The disk. -/
  disk : Disk
  /-- The journal. -/
  journal : Journal
  /-- What was printed as output. -/
  out : Text
  /-- What was printed as messages. -/
  err : Text
  deriving DecidableEq, Repr

namespace Session

/-- Write entries into the journal. -/
def note (session : Session) (now : Moment) (entries : List Entry) : Session :=
  { session with disk := session.journal.writeAll now entries session.disk }

/-- Write an entry of the program itself into the journal. -/
def noteOwn (session : Session) (now : Moment) (level : Level) (message : Text) : Session :=
  session.note now [⟨level, "tms.app".toList, message⟩]

/-- Print a line as a message. -/
def say (session : Session) (message : Text) : Session :=
  { session with err := session.err ++ message ++ ['\n'] }

end Session

/-- Why a run breaks off without an exit code. -/
inductive Escape where
  /-- The journal cannot be set up. -/
  | journal (e : DiskFault)
  /-- The settings cannot be read. -/
  | settings (e : Settings.Fault)
  /-- An input file cannot be read, and this is no refusal. -/
  | input (e : InputFile.Fault)
  /-- The place of the rule list is left blank. -/
  | blankRules
  /-- A rule names a capture by a numeral that is too long. -/
  | numeral (e : NumeralTooLong)
  /-- The place of the folder for the result file is left blank. -/
  | blankFolder
  /-- The result file cannot be saved, and this is not reported. -/
  | save (e : DiskFault)
  deriving DecidableEq, Repr

/-- What is said of a run that breaks off. -/
def Escape.message : Escape → Text
  | .journal e => e.message
  | .settings e => e.message
  | .input e => e.message
  | .blankRules => "\x27list\x27 object has no attribute \x27is_file\x27".toList
  | .numeral e => e.message
  | .blankFolder =>
    "unsupported operand type(s) for /: \x27list\x27 and \x27str\x27".toList
  | .save e => e.message

/-- How a run ends. -/
inductive Ending where
  /-- With an exit code. -/
  | exit (code : Nat)
  /-- It breaks off. -/
  | escaped (e : Escape)
  deriving DecidableEq, Repr

/-- Why there is no result: a failure that is reported, or one that breaks the run
off. -/
inductive Failure where
  /-- It is reported with this message. -/
  | reported (message : Text)
  /-- It breaks the run off. -/
  | escaped (e : Escape)
  deriving DecidableEq, Repr

namespace Failure

/-- The failure of an input file: refusals are reported. -/
def ofInput : InputFile.Fault → Failure
  | .refused e => .reported e.message
  | e => .escaped (.input e)

/-- The failure of an evaluation: a sweep that broke off is reported. -/
def ofEvaluation : EvaluationFault → Failure
  | .numeral e => .escaped (.numeral e)
  | .brokenOff reason => .reported (EvaluationFault.brokenOff reason).message

end Failure

/-! ## The stages of a run -/

/-- Read an input file of at most `limit` bytes. -/
def readInput (environment : Environment) (settings : Settings) (limit : Int) (path : Path)
    (session : Session) : Except Failure Text × Session :=
  let demands : InputFile.Demands := ⟨limit, settings.encoding, settings.checkExtensions⟩
  match InputFile.read session.disk path demands with
  | .error e => (.error (.ofInput e), session)
  | .ok text => (.ok text, session.note environment.now [InputFile.entry path text])

/-- Read the rule list. -/
def readRules (environment : Environment) (args : Arguments) (settings : Settings)
    (session : Session) : Except Failure Text × Session :=
  match args.rules with
  | none => (.error (.escaped .blankRules), session)
  | some path => readInput environment settings settings.maxRulesBytes path session

/-- Evaluate a rule list on a source. -/
def evaluateTexts (environment : Environment) (source rules : Text) (session : Session) :
    Except Failure Result × Session :=
  let outcome := evaluateBy environment.sweeper source rules
  (outcome.mapError .ofEvaluation,
    session.note environment.now (evaluationEntries source rules outcome))

/-- Read the source and then the rule list, and evaluate. -/
def evaluateFiles (environment : Environment) (args : Arguments) (settings : Settings)
    (session : Session) : Except Failure Result × Session :=
  match readInput environment settings settings.maxSourceBytes args.source session with
  | (.error e, session) => (.error e, session)
  | (.ok source, session) =>
    match readRules environment args settings session with
    | (.error e, session) => (.error e, session)
    | (.ok rules, session) => evaluateTexts environment source rules session

/-- The line about a rule that was skipped. -/
def skippedLine (rule : Rule) : Text :=
  "warning: rule on line ".toList ++ Text.signedDecimal rule.number ++ " skipped: ".toList
    ++ rule.warning

/-- The counts of a result. -/
def countsText (result : Result) : Text :=
  "matches=".toList ++ Text.decimal result.matchCount ++ " replacements=".toList
    ++ Text.decimal result.replaceCount

/-- Print the skipped rules, the result and its counts. -/
def printResult (format : OutputFormat) (result : Result) (session : Session) : Session :=
  let session := (result.skipped.map skippedLine).foldl Session.say session
  let session := { session with out := session.out ++ format.print result.segments }
  session.say (countsText result)

/-- Why a result cannot be saved: a failure that is reported, or one that breaks the run
off. -/
inductive SaveFault where
  /-- It is reported with this message. -/
  | reported (message : Text)
  /-- It breaks the run off. -/
  | escaped (e : DiskFault)
  deriving DecidableEq, Repr

/-- The failure of a disk: only what the disk itself refuses is reported. -/
def SaveFault.ofDisk : DiskFault → SaveFault
  | .refused kind path => .reported (DiskFault.refused kind path).message
  | e => .escaped e

/-- The bytes of a text in the encoding of a given name; a name that stands for no
character set is not met here, since the input files have been read by it. -/
def encodeBy (encoding text : Text) : Except EncodeFault Bytes :=
  match Encoding.ofName? encoding with
  | some (.charset charset) => charset.encode text
  | _ => .ok []

/-- Save a text in a file and make the folders on the way.  The file is emptied before
the text is written. -/
def saveText (encoding text : Text) (path : Path) (disk : Disk) :
    Except SaveFault Unit × Disk :=
  match disk.save path [] with
  | (.error e, disk) => (.error (.ofDisk e), disk)
  | (.ok (), disk) =>
    match encodeBy encoding text with
    | .error e => (.error (.reported e.message), disk)
    | .ok content =>
      match disk.write path content with
      | .error e => (.error (.ofDisk e), disk)
      | .ok disk => (.ok (), disk)

/-- Save a result in a folder, and say so; the answer tells how the run ends if it cannot
go on. -/
def saveIn (folder : Path) (environment : Environment) (args : Arguments) (settings : Settings)
    (result : Result) (session : Session) : Option Ending × Session :=
  let target := folder.child (resultFileName args.source.name environment.now)
  match saveText settings.encoding result.text target session.disk with
  | (.error (.escaped e), disk) => (some (.escaped (.save e)), { session with disk })
  | (.error (.reported message), disk) =>
    let session := { session with disk }
    let session := session.noteOwn environment.now .error
      ("Saving result failed: ".toList ++ message)
    (some (.exit 1),
      session.say ("error: could not save ".toList ++ target.text ++ ": ".toList ++ message))
  | (.ok (), disk) =>
    let session := { session with disk }
    let session := session.noteOwn environment.now .info
      ("Result saved. path=".toList ++ target.text)
    (none, session.say ("saved: ".toList ++ target.text))

/-- Save a result, if that is asked for; the answer tells how the run ends if it cannot go
on. -/
def saveResult (environment : Environment) (args : Arguments) (settings : Settings)
    (result : Result) (session : Session) : Option Ending × Session :=
  match args.saveDir with
  | none => (none, session)
  | some none => (some (.escaped .blankFolder), session)
  | some (some folder) => saveIn folder environment args settings result session

/-- Print and save a result. -/
def reportResult (environment : Environment) (args : Arguments) (settings : Settings)
    (result : Result) (session : Session) : Ending × Session :=
  let format := args.format.getD settings.outputFormat
  let session := printResult format result session
  match saveResult environment args settings result session with
  | (some ending, session) => (ending, session)
  | (none, session) =>
    (.exit 0, session.noteOwn environment.now .info
      ("Run finished. ".toList ++ countsText result))

/-- The rest of a run whose settings have been read. -/
def runWith (environment : Environment) (args : Arguments) (settings : Settings)
    (session : Session) : Ending × Session :=
  match evaluateFiles environment args settings session with
  | (.error (.escaped e), session) => (.escaped e, session)
  | (.error (.reported message), session) =>
    let session := session.noteOwn environment.now .error ("Run failed: ".toList ++ message)
    (.exit 1, session.say ("error: ".toList ++ message))
  | (.ok result, session) => reportResult environment args settings result session

/-- The rest of a run whose journal has been set up. -/
def runJournaled (environment : Environment) (args : Arguments) (session : Session) :
    Ending × Session :=
  let session := session.noteOwn environment.now .info
    ("Run started. Log file: ".toList ++ environment.home.journal.text)
  match Settings.load (args.config.getD environment.home.settings) session.disk with
  | (.error e, disk) => (.escaped (.settings e), { session with disk })
  | (.ok settings, disk) => runWith environment args settings { session with disk }

/-- A run with a command line that has been read. -/
def runArguments (environment : Environment) (args : Arguments) (disk : Disk) : Ending × Session :=
  let level := if args.verbose then .debug else .info
  match Journal.unset.attach environment.home.journal level disk with
  | (.error e, journal, disk) => (.escaped (.journal e), ⟨disk, journal, [], []⟩)
  | (.ok (), journal, disk) => runJournaled environment args ⟨disk, journal, [], []⟩

/-- A run of the program. -/
def run (environment : Environment) (words : List Text) (disk : Disk) : Ending × Session :=
  match Arguments.ofWords words with
  | .error .help => (.exit 0, ⟨disk, .unset, helpText, []⟩)
  | .error (.fault e) => (.exit 2, ⟨disk, .unset, [], e.report⟩)
  | .ok args => runArguments environment args disk

end CommandLine

end RuleSweep
