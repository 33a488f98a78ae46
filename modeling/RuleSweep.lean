import RuleSweep.Rule
import RuleSweep.Pattern.Search
import RuleSweep.Template.Reading
import RuleSweep.Matcher
import RuleSweep.Sweep
import RuleSweep.Evaluation
import RuleSweep.Evaluation.Cache
import RuleSweep.Output
import RuleSweep.Output.FileName
import RuleSweep.Charset.Coding
import RuleSweep.Disk
import RuleSweep.InputFile
import RuleSweep.Json
import RuleSweep.Settings
import RuleSweep.Journal
import RuleSweep.CommandLine
import RuleSweep.Main
import RuleSweep.Proofs.Pattern.Leftmost
import RuleSweep.Proofs.Pattern.Bounds
import RuleSweep.Proofs.RuleList
import RuleSweep.Proofs.Sweep.Memory
import RuleSweep.Proofs.Sweep.Ahead
import RuleSweep.Proofs.Sweep.Stride
import RuleSweep.Proofs.Sweep.Partition
import RuleSweep.Proofs.Sweep.Plain
import RuleSweep.Proofs.Sweep.Junction
import RuleSweep.Proofs.Sweep.Spans
import RuleSweep.Proofs.Sweep.Kept
import RuleSweep.Proofs.Template.Plain
import RuleSweep.Proofs.Template.Newlines
import RuleSweep.Proofs.Sweep.Newlines
import RuleSweep.Proofs.Evaluation.Cache
import RuleSweep.Proofs.Pattern.Literal
import RuleSweep.Proofs.Rule.Row
import RuleSweep.Proofs.Evaluation.Term
import RuleSweep.Proofs.Sweep.Renaming
import RuleSweep.Proofs.RuleList.Insertion
import RuleSweep.Proofs.RuleList.Numerals
import RuleSweep.Proofs.Sweep.Lines
import RuleSweep.Proofs.Evaluation.Deletion
import RuleSweep.Proofs.Evaluation.Echo
import RuleSweep.Proofs.Evaluation.WholeLines
import RuleSweep.Proofs.Charset.Utf8
import RuleSweep.Proofs.Disk
import RuleSweep.Proofs.Json.Objects
import RuleSweep.Proofs.Settings.Document
import RuleSweep.Proofs.Settings.Load
import RuleSweep.Proofs.Template.TypedLine
import RuleSweep.Proofs.Journal
import RuleSweep.Proofs.Charset.Coding
import RuleSweep.Proofs.Evaluation.Provenance
import RuleSweep.Proofs.CommandLine.Saved
import RuleSweep.Proofs.CommandLine.Unreplaced
import RuleSweep.Proofs.Pattern.Alternatives
import RuleSweep.Proofs.Rule.Written
import RuleSweep.Proofs.Evaluation.LineEcho
import RuleSweep.Proofs.Sweep.Removal
import RuleSweep.Proofs.Sweep.Progress
import RuleSweep.Proofs.Settings.Saved
import RuleSweep.Proofs.Output.Html
import RuleSweep.Proofs.Output.SegmentLines
import RuleSweep.Proofs.Sweep.Queries
import RuleSweep.Proofs.CommandLine.Unreadable
import RuleSweep.Proofs.CommandLine.AllOrNothing
