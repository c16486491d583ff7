import MarkupLint.Cli.Arguments
import MarkupLint.Cli.Outcome
import MarkupLint.Cli.Run
import MarkupLint.Cli.Usage
import MarkupLint.Config.Basic
import MarkupLint.Config.File
import MarkupLint.Config.Reader
import MarkupLint.Execution
import MarkupLint.Failure
import MarkupLint.Files.Discovery
import MarkupLint.Files.Ignore
import MarkupLint.Files.Tree
import MarkupLint.Glob.Match
import MarkupLint.Glob.Pattern
import MarkupLint.Lint.Diagnostic
import MarkupLint.Lint.IdMap
import MarkupLint.Lint.Linter
import MarkupLint.Lint.Rule
import MarkupLint.Lint.Session
import MarkupLint.Main
import MarkupLint.Markup.Event
import MarkupLint.Markup.Piece
import MarkupLint.Markup.Tokenizer
import MarkupLint.Path
import MarkupLint.Proofs.CaseBlind
import MarkupLint.Proofs.Coloring
import MarkupLint.Proofs.Cut
import MarkupLint.Proofs.Decoding
import MarkupLint.Proofs.Discovery
import MarkupLint.Proofs.Dispatch
import MarkupLint.Proofs.Enumeration
import MarkupLint.Proofs.Evidence
import MarkupLint.Proofs.ExitStatus
import MarkupLint.Proofs.Findings
import MarkupLint.Proofs.Floating
import MarkupLint.Proofs.GlobLanguage
import MarkupLint.Proofs.Grammar
import MarkupLint.Proofs.HumanReport
import MarkupLint.Proofs.Identifiers
import MarkupLint.Proofs.Indentation
import MarkupLint.Proofs.Initialisation
import MarkupLint.Proofs.Isolation
import MarkupLint.Proofs.JsonLines
import MarkupLint.Proofs.JsonReading
import MarkupLint.Proofs.Language
import MarkupLint.Proofs.LetterCase
import MarkupLint.Proofs.Lines
import MarkupLint.Proofs.Overlap
import MarkupLint.Proofs.Places
import MarkupLint.Proofs.PlainScan
import MarkupLint.Proofs.Positions
import MarkupLint.Proofs.RawText
import MarkupLint.Proofs.Reading
import MarkupLint.Proofs.Registrations
import MarkupLint.Proofs.Roots
import MarkupLint.Proofs.Scanner
import MarkupLint.Proofs.Selection
import MarkupLint.Proofs.Sessions
import MarkupLint.Proofs.Settings
import MarkupLint.Proofs.Shortest
import MarkupLint.Proofs.Slices
import MarkupLint.Proofs.Summaries
import MarkupLint.Proofs.Trace
import MarkupLint.Proofs.WalkSelection
import MarkupLint.Proofs.Workers
import MarkupLint.Proofs.Writing
import MarkupLint.Regex.Basic
import MarkupLint.Regex.CharClass
import MarkupLint.Regex.ClassReader
import MarkupLint.Regex.Escape
import MarkupLint.Regex.Flags
import MarkupLint.Regex.Marked
import MarkupLint.Regex.PropertyName
import MarkupLint.Regex.Reader
import MarkupLint.Report.Human
import MarkupLint.Report.Jsonl
import MarkupLint.Report.RuleListing
import MarkupLint.Rules.Builtin
import MarkupLint.Rules.Indent
import MarkupLint.Text.Basic
import MarkupLint.Text.Split
import MarkupLint.Text.Utf8
import MarkupLint.Toml.Reader
import MarkupLint.Toml.Scalar
import MarkupLint.Toml.Table
import MarkupLint.Toml.Text
import MarkupLint.Unicode.CaseFold
import MarkupLint.Unicode.Category
import MarkupLint.Unicode.CharSet
import MarkupLint.Unicode.Property
import MarkupLint.Unicode.Script
