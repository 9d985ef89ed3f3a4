import Anchored.Anchor
import Anchored.CommandLine.Run
import Anchored.CommandLine.Uuid
import Anchored.Config
import Anchored.Disk.Document
import Anchored.Editor
import Anchored.History
import Anchored.Linter.Command
import Anchored.Main
import Anchored.Replacement
import Anchored.Request
import Anchored.Response
import Anchored.Validation
import Anchored.Proofs.Disk.Files
import Anchored.Proofs.Editor.BoundedStack
import Anchored.Proofs.Editor.Steps
import Anchored.Proofs.Editor.Atomicity
import Anchored.Proofs.Editor.CutShort
import Anchored.Proofs.Editor.Sharing
import Anchored.Proofs.Text.Measure
import Anchored.Proofs.Text.Occurrence
import Anchored.Proofs.Editor.StrictEdit
import Anchored.Proofs.Editor.Session
import Anchored.Proofs.Text.Lines
import Anchored.Proofs.Text.Normal
import Anchored.Proofs.Text.Places
import Anchored.Proofs.Anchor.Windows
import Anchored.Proofs.Anchor.Uniqueness
import Anchored.Proofs.Anchor.Images
import Anchored.Proofs.Anchor.Covering
import Anchored.Proofs.Anchor.WholeLines
import Anchored.Proofs.Editor.Provenance
import Anchored.Proofs.Disk.FileNames
import Anchored.Proofs.Editor.Validity
import Anchored.Proofs.Editor.DryRun
import Anchored.Proofs.Editor.Gate
import Anchored.Proofs.Editor.Lockstep
import Anchored.Proofs.Bracket.Division
import Anchored.Proofs.Bracket.Balanced
import Anchored.Proofs.Anchor.Counts
import Anchored.Proofs.Editor.Answers
import Anchored.Proofs.Text.Spelling
import Anchored.Proofs.Text.Partition
import Anchored.Proofs.Anchor.Spelling
import Anchored.Proofs.Anchor.Tabs
import Anchored.Proofs.Editor.Undone
import Anchored.Proofs.Editor.Chain
import Anchored.Proofs.Editor.Linting
import Anchored.Proofs.CommandLine.Runs
import Anchored.Proofs.CommandLine.Failures
import Anchored.Proofs.Anchor.Completeness
import Anchored.Proofs.Bracket.RawStrings
import Anchored.Proofs.Bracket.NestedComments
import Anchored.Proofs.Bracket.LineNumbers
import Anchored.Proofs.Text.Numbering
import Anchored.Proofs.Editor.ReportedLines
import Anchored.Proofs.Text.Bytes
import Anchored.Proofs.Text.Positions
import Anchored.Proofs.Anchor.Exact
import Anchored.Proofs.Anchor.Located
import Anchored.Proofs.Anchor.NormalLines
import Anchored.Proofs.Anchor.NormalForms
import Anchored.Proofs.Anchor.HitLines
import Anchored.Proofs.Editor.Splice
import Anchored.Proofs.Text.Guarded
import Anchored.Proofs.Anchor.Guarded
import Anchored.Proofs.Editor.Guarded
import Anchored.Proofs.Wire.Requests
import Anchored.Proofs.Wire.Responses
