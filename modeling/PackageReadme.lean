import PackageReadme.Arguments.Invocation
import PackageReadme.Arguments.Key
import PackageReadme.Arguments.Parse
import PackageReadme.Badge
import PackageReadme.Command.Failure
import PackageReadme.Command.Program
import PackageReadme.Command.Run
import PackageReadme.Command.Stamp
import PackageReadme.Comment.Block
import PackageReadme.Comment.Heading
import PackageReadme.Comment.Sentence
import PackageReadme.Comment.Synopsis
import PackageReadme.Contents
import PackageReadme.Decimal.Shortest
import PackageReadme.Declaration
import PackageReadme.Emphasis.Link
import PackageReadme.Emphasis.Parens
import PackageReadme.Emphasis.Piece
import PackageReadme.Failure
import PackageReadme.Fetch.Outcome
import PackageReadme.Fetch.Schedule
import PackageReadme.FileTree.Basic
import PackageReadme.FileTree.Path
import PackageReadme.Json.Decoder
import PackageReadme.Json.Fault
import PackageReadme.Json.Number
import PackageReadme.Json.Printer
import PackageReadme.Json.Reader
import PackageReadme.Json.Record
import PackageReadme.Json.Scan
import PackageReadme.Json.Skip
import PackageReadme.Json.Value
import PackageReadme.Keyed
import PackageReadme.Log.Directive
import PackageReadme.Log.Filter
import PackageReadme.Log.Pattern
import PackageReadme.Log.Record
import PackageReadme.Main
import PackageReadme.Manifest
import PackageReadme.Markdown
import PackageReadme.Newlines
import PackageReadme.Package.Basic
import PackageReadme.Package.Coding
import PackageReadme.Proofs.Arguments.Spelling
import PackageReadme.Proofs.Bodies
import PackageReadme.Proofs.Command.Breakdown
import PackageReadme.Proofs.Command.Replacement
import PackageReadme.Proofs.Comment.Diffs
import PackageReadme.Proofs.Comment.Headings
import PackageReadme.Proofs.Comment.Reading
import PackageReadme.Proofs.Comment.Shifting
import PackageReadme.Proofs.Comment.Succession
import PackageReadme.Proofs.Comment.Summary
import PackageReadme.Proofs.Comment.Tiling
import PackageReadme.Proofs.Comment.Titles
import PackageReadme.Proofs.Creation
import PackageReadme.Proofs.Dump
import PackageReadme.Proofs.Emphasis.Characters
import PackageReadme.Proofs.Emphasis.Cutting
import PackageReadme.Proofs.Emphasis.Grammar
import PackageReadme.Proofs.Emphasis.Independence
import PackageReadme.Proofs.Emphasis.Linking
import PackageReadme.Proofs.Emphasis.Mapping
import PackageReadme.Proofs.Emphasis.PairedLength
import PackageReadme.Proofs.Emphasis.Parens
import PackageReadme.Proofs.Emphasis.Punctuation
import PackageReadme.Proofs.Emphasis.Rewriting
import PackageReadme.Proofs.Emphasis.Spans
import PackageReadme.Proofs.Emphasis.Targets
import PackageReadme.Proofs.Emphasis.Tokens
import PackageReadme.Proofs.Fences
import PackageReadme.Proofs.Fetch.Confinement
import PackageReadme.Proofs.Fetch.Deadline
import PackageReadme.Proofs.Fetch.Ending
import PackageReadme.Proofs.Fetch.Levels
import PackageReadme.Proofs.FileTree.Changes
import PackageReadme.Proofs.Json.AnyValue
import PackageReadme.Proofs.Json.Codes
import PackageReadme.Proofs.Json.Pretty
import PackageReadme.Proofs.Json.Taking
import PackageReadme.Proofs.Keyed
import PackageReadme.Proofs.LineByLine
import PackageReadme.Proofs.Listing
import PackageReadme.Proofs.Newlines
import PackageReadme.Proofs.Rendering
import PackageReadme.Proofs.Results
import PackageReadme.Proofs.RoundTrip
import PackageReadme.Proofs.Runs
import PackageReadme.Proofs.Section.Hidden
import PackageReadme.Proofs.Section.Placement
import PackageReadme.Proofs.Settings.Agreement
import PackageReadme.Proofs.Settings.Filling
import PackageReadme.Proofs.Settings.Forms
import PackageReadme.Proofs.Settings.Layering
import PackageReadme.Proofs.Settings.Leaf
import PackageReadme.Proofs.Settings.Nesting
import PackageReadme.Proofs.Settings.Priority
import PackageReadme.Proofs.Settings.Reading
import PackageReadme.Proofs.Settings.Texts
import PackageReadme.Proofs.Settings.Variables
import PackageReadme.Proofs.Streaming
import PackageReadme.Proofs.Text.Indentation
import PackageReadme.Proofs.Text.Letters
import PackageReadme.Proofs.Text.Lines
import PackageReadme.Proofs.Text.Start
import PackageReadme.Readme
import PackageReadme.Section.Assembly
import PackageReadme.Section.Basic
import PackageReadme.Section.Markdown
import PackageReadme.Settings.Basic
import PackageReadme.Settings.Coding
import PackageReadme.Settings.Environment
import PackageReadme.Settings.Extraction
import PackageReadme.Settings.Layer
import PackageReadme.Settings.Sources
import PackageReadme.Source
import PackageReadme.Text.Alphanumeric
import PackageReadme.Text.Blank
import PackageReadme.Text.Bytes
import PackageReadme.Text.Digits
import PackageReadme.Text.Letter
import PackageReadme.Text.Line
import PackageReadme.Text.Quoted
import PackageReadme.Text.Ranges
import PackageReadme.Text.Start
