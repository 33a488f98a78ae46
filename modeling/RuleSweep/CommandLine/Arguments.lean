/-
# Command-line arguments

The words behind the name of the program: two paths and some flags, in any order.  The
name of a flag may be cut short as long as no other flag begins so, and its value may
follow behind an equals sign or as the next word.  Behind the word `--` every word is a
path.  Of a flag that is given twice, the last value counts.  A word `--` in the place of a
value, or of the rule list, leaves that place blank.
-/
import RuleSweep.Output
import RuleSweep.Path
import RuleSweep.Text.Digit
import RuleSweep.Text.Quoted

namespace RuleSweep

namespace CommandLine

/-! ## Flags -/

/-- A flag of the command line. -/
inductive Flag where
  /-- Show the help text. -/
  | help
  /-- The format of the output. -/
  | format
  /-- The file with the settings. -/
  | config
  /-- The folder for the result file. -/
  | saveDir
  /-- Write details into the journal. -/
  | verbose
  deriving DecidableEq, Repr

namespace Flag

/-- The flags, in the order in which they are listed. -/
def all : List Flag :=
  [.help, .format, .config, .saveDir, .verbose]

/-- The full name of a flag. -/
def longName : Flag → Text
  | .help => "--help".toList
  | .format => "--format".toList
  | .config => "--config".toList
  | .saveDir => "--save-dir".toList
  | .verbose => "--verbose".toList

/-- The name of a flag in what is said about it. -/
def title : Flag → Text
  | .help => "-h/--help".toList
  | flag => flag.longName

/-- The flag takes a value. -/
def takesValue : Flag → Bool
  | .help => false
  | .format => true
  | .config => true
  | .saveDir => true
  | .verbose => false

end Flag

/-! ## Faults -/

/-- What is wrong with a command line. -/
inductive UsageFault where
  /-- Paths are missing; these are their names. -/
  | missing (names : List Text)
  /-- There is no such format. -/
  | noSuchFormat (value : Text)
  /-- A flag lacks its value. -/
  | lacksValue (flag : Flag)
  /-- A flag takes no value. -/
  | takesNoValue (flag : Flag) (value : Text)
  /-- Several flags begin with this word. -/
  | ambiguous (word : Text) (flags : List Flag)
  /-- These words mean nothing. -/
  | unrecognized (words : List Text)
  deriving DecidableEq, Repr

/-- What is said of a command line that is wrong. -/
def UsageFault.message : UsageFault → Text
  | .missing names =>
    "the following arguments are required: ".toList ++ Text.joinWith ", ".toList names
  | .noSuchFormat value =>
    "argument ".toList ++ Flag.format.title ++ ": invalid choice: ".toList ++ value.quoted
      ++ " (choose from ".toList
      ++ Text.joinWith ", ".toList (OutputFormat.all.map fun format => format.name.quoted)
      ++ ")".toList
  | .lacksValue flag => "argument ".toList ++ flag.title ++ ": expected one argument".toList
  | .takesNoValue flag value =>
    "argument ".toList ++ flag.title ++ ": ignored explicit argument ".toList
      ++ value.quoted
  | .ambiguous word flags =>
    "ambiguous option: ".toList ++ word ++ " could match ".toList
      ++ Text.joinWith ", ".toList (flags.map Flag.longName)
  | .unrecognized words =>
    "unrecognized arguments: ".toList ++ Text.joinWith [' '] words

/-- Why a command line asks for no run. -/
inductive Stop where
  /-- It asks for the help text. -/
  | help
  /-- It is wrong. -/
  | fault (e : UsageFault)
  deriving DecidableEq, Repr

/-! ## Kinds of words -/

/-- What a word of the command line is. -/
inductive Word where
  /-- A path or a value. -/
  | plain (t : Text)
  /-- The word behind which every word is plain. -/
  | separator
  /-- A flag, and the value that is written into the same word. -/
  | flag (flag : Flag) (value : Option Text)
  /-- A word that looks like a flag and is none. -/
  | unknown (t : Text)
  deriving DecidableEq, Repr

namespace Word

/-- The word behind which every word is plain. -/
def separatorText : Text := "--".toList

/-- A word that looks like a number below zero is plain, also with a newline behind
it. -/
def isNegativeNumber : Text → Bool
  | '-' :: t =>
    let digits := if t.getLast? = some '\n' then t.dropLast else t
    match digits.span isAnyDigit with
    | (_ :: _, []) => true
    | (_, '.' :: fraction) => !fraction.isEmpty && fraction.all isAnyDigit
    | _ => false
  | _ => false

/-- A word with a hyphen in front that names no flag. -/
def ofOther (t : Text) : Word :=
  if isNegativeNumber t || t.contains ' ' then .plain t else .unknown t

/-- The value in a word: what stands behind the first equals sign, if there is one. -/
def valueIn (t : Text) : Text × Option Text :=
  match t.span (· ≠ '=') with
  | (name, '=' :: value) => (name, some value)
  | (name, _) => (name, none)

/-- A word with two hyphens in front. -/
def ofLong (t : Text) : Except UsageFault Word :=
  let (name, value) := valueIn t
  match Flag.all.find? (·.longName = name), Flag.all.filter (name.isPrefixOf ·.longName) with
  | some exact, _ => .ok (.flag exact value)
  | none, [only] => .ok (.flag only value)
  | none, [] => .ok (ofOther t)
  | none, several => .error (.ambiguous t several)

/-- The help flag with more letters in the same word.  Letters that repeat the flag do
not count; what stands behind them is a value, which the flag does not take. -/
def ofCluster (letters : Text) : Word :=
  match letters.dropWhile (· = 'h') with
  | [] => .flag .help none
  | value => .flag .help (some value)

/-- A word with one hyphen in front, given without the hyphen.  An equals sign right
behind the help flag does not count unless it ends the word. -/
def ofShort : Text → Word
  | ['h', '='] => .flag .help (some [])
  | 'h' :: '=' :: letters => ofCluster letters
  | 'h' :: letters => ofCluster letters
  | t => ofOther ('-' :: t)

/-- The kind of a word in front of the separator. -/
def ofText : Text → Except UsageFault Word
  | '-' :: '-' :: rest => ofLong ('-' :: '-' :: rest)
  | ['-'] => .ok (.plain ['-'])
  | '-' :: rest => .ok (ofShort rest)
  | t => .ok (.plain t)

/-- The kinds of all words. -/
def ofTexts : List Text → Except UsageFault (List Word)
  | [] => .ok []
  | t :: rest =>
    if t = separatorText then .ok (.separator :: rest.map .plain)
    else
      match ofText t with
      | .error e => .error e
      | .ok word => (ofTexts rest).map (word :: ·)

end Word

/-! ## Reading the words -/

/-- What the command line asks for. -/
structure Arguments where
  /-- The source. -/
  source : Path
  /-- The rule list, unless its place is left blank. -/
  rules : Option Path
  /-- The format of the output, if one is asked for. -/
  format : Option OutputFormat
  /-- The file with the settings, if one is named. -/
  config : Option Path
  /-- The folder for the result file, if one is asked for; its place may be left blank. -/
  saveDir : Option (Option Path)
  /-- Write details into the journal. -/
  verbose : Bool
  deriving DecidableEq, Repr

/-- How far the words have been read. -/
structure Reading where
  /-- The source so far. -/
  source : Option Path := none
  /-- The rule list so far; its place may be left blank. -/
  rules : Option (Option Path) := none
  /-- The last word was taken for a path. -/
  afterPath : Bool := false
  /-- The separator stands in front of the rule list, and not right behind the source. -/
  separated : Bool := false
  /-- The words that mean nothing. -/
  extras : List Text := []
  /-- The format so far. -/
  format : Option OutputFormat := none
  /-- The file with the settings so far. -/
  config : Option Path := none
  /-- The folder for the result file so far; its place may be left blank. -/
  saveDir : Option (Option Path) := none
  /-- Details are asked for. -/
  verbose : Bool := false
  deriving DecidableEq, Repr

namespace Reading

/-- The path that a word gives, which leaves its place blank if it is the separator. -/
def pathOrBlank (t : Text) : Option Path :=
  if t = Word.separatorText then none else some (Path.ofText t)

/-- The rule list that a plain word gives.  A word like the separator gives a path only
where the separator in front of it does not belong to the source. -/
def rulesOf (reading : Reading) (t : Text) : Option Path :=
  if reading.separated then some (Path.ofText t) else pathOrBlank t

/-- Add a plain word: a path while paths are missing, and one word too many after
that. -/
def addPlain (reading : Reading) (t : Text) : Reading :=
  match reading.source, reading.rules with
  | none, _ => { reading with source := some (Path.ofText t), afterPath := true }
  | some _, none => { reading with rules := some (reading.rulesOf t), afterPath := true }
  | some _, some _ => { reading with extras := reading.extras ++ [t], afterPath := false }

/-- Add the separator.  It belongs to the path right in front of it or else to the path
right behind it, and counts as a word too many if there is neither. -/
def addSeparator (reading : Reading) : Reading :=
  if reading.afterPath then { reading with afterPath := false }
  else if reading.rules.isNone then { reading with separated := reading.source.isSome }
  else { reading with extras := reading.extras ++ [Word.separatorText] }

/-- Add a word that means nothing. -/
def addUnknown (reading : Reading) (t : Text) : Reading :=
  { reading with extras := reading.extras ++ [t], afterPath := false }

/-- The format that a word gives, which leaves its place blank if it is the separator. -/
def formatOrBlank (t : Text) : Except UsageFault (Option OutputFormat) :=
  if t = Word.separatorText then .ok none
  else
    match OutputFormat.ofName? t with
    | none => .error (.noSuchFormat t)
    | some format => .ok (some format)

/-- Add a flag and its value. -/
def addValue (reading : Reading) (flag : Flag) (value : Text) : Except Stop Reading :=
  match flag with
  | .format =>
    match formatOrBlank value with
    | .error e => .error (.fault e)
    | .ok format => .ok { reading with format, afterPath := false }
  | .config => .ok { reading with config := pathOrBlank value, afterPath := false }
  | .saveDir => .ok { reading with saveDir := some (pathOrBlank value), afterPath := false }
  | .help => .error (.fault (.takesNoValue .help value))
  | .verbose => .error (.fault (.takesNoValue .verbose value))

/-- Add a flag without a value. -/
def addFlag (reading : Reading) (flag : Flag) : Except Stop Reading :=
  match flag with
  | .help => .error .help
  | .verbose => .ok { reading with verbose := true, afterPath := false }
  | flag => .error (.fault (.lacksValue flag))

/-- Read all words. -/
def readWords (reading : Reading) : List Word → Except Stop Reading
  | [] => .ok reading
  | .plain t :: rest => (reading.addPlain t).readWords rest
  | .separator :: rest => reading.addSeparator.readWords rest
  | .unknown t :: rest => (reading.addUnknown t).readWords rest
  | .flag named (some value) :: rest =>
    match reading.addValue named value with
    | .error stop => .error stop
    | .ok reading => reading.readWords rest
  | .flag named none :: .plain value :: rest =>
    if named.takesValue then
      match reading.addValue named value with
      | .error stop => .error stop
      | .ok reading => reading.readWords rest
    else
      match reading.addFlag named with
      | .error stop => .error stop
      | .ok reading => (reading.addPlain value).readWords rest
  | .flag named none :: rest =>
    match reading.addFlag named with
    | .error stop => .error stop
    | .ok reading => reading.readWords rest

/-- What the words ask for, once all of them are read. -/
def finish (reading : Reading) : Except Stop Arguments :=
  match reading.source, reading.rules with
  | none, _ => .error (.fault (.missing ["source".toList, "rules".toList]))
  | some _, none => .error (.fault (.missing ["rules".toList]))
  | some source, some rules =>
    if reading.extras = [] then
      .ok ⟨source, rules, reading.format, reading.config, reading.saveDir, reading.verbose⟩
    else .error (.fault (.unrecognized reading.extras))

end Reading

/-- What a command line asks for. -/
def Arguments.ofWords (words : List Text) : Except Stop Arguments :=
  match Word.ofTexts words with
  | .error e => .error (.fault e)
  | .ok words =>
    match Reading.readWords {} words with
    | .error stop => .error stop
    | .ok reading => reading.finish

/-! ## Usage -/

/-- The name of the program. -/
def programName : Text :=
  "text-multi-search".toList

/-- How the program is called. -/
def usage : Text :=
  ("usage: text-multi-search [-h] [--format \x7btext,html,segments\x7d]\n"
    ++ "                         [--config CONFIG] [--save-dir SAVE_DIR] [--verbose]\n"
    ++ "                         source rules\n").toList

/-- The help text. -/
def helpText : Text :=
  usage
    ++ ("\nApply a list of search/replace rules to a text file in one pass.\n"
      ++ "\npositional arguments:\n"
      ++ "  source                text file to search\n"
      ++ "  rules                 rule file, one rule per line\n"
      ++ "\noptions:\n"
      ++ "  -h, --help            show this help message and exit\n"
      ++ "  --format \x7btext,html,segments\x7d\n"
      ++ "  --config CONFIG\n"
      ++ "  --save-dir SAVE_DIR   also write the rewritten text into this directory\n"
      ++ "  --verbose             log debug details\n").toList

/-- What is printed about a command line that is wrong. -/
def UsageFault.report (e : UsageFault) : Text :=
  usage ++ programName ++ ": error: ".toList ++ e.message ++ ['\n']

end CommandLine

end RuleSweep
