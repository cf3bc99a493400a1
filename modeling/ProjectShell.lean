import ProjectShell.Command.Builtin
import ProjectShell.Command.Files
import ProjectShell.Command.Find
import ProjectShell.Command.Grep
import ProjectShell.Command.Lines
import ProjectShell.Command.Listing
import ProjectShell.Command.Options
import ProjectShell.Command.Packages
import ProjectShell.Command.Report
import ProjectShell.Command.Script
import ProjectShell.Command.Sed
import ProjectShell.Command.Session
import ProjectShell.Command.Xargs
import ProjectShell.CommandLine.Arguments
import ProjectShell.CommandLine.Folder
import ProjectShell.CommandLine.Session
import ProjectShell.FileStore.Basic
import ProjectShell.FileStore.Document
import ProjectShell.FileStore.Error
import ProjectShell.FileStore.File
import ProjectShell.FileStore.History
import ProjectShell.FileStore.Language
import ProjectShell.FileStore.Manifest
import ProjectShell.FileStore.Path
import ProjectShell.FileStore.Plan
import ProjectShell.FileStore.Search
import ProjectShell.Glob.NamePattern
import ProjectShell.Glob.PathPattern
import ProjectShell.Json.Cursor
import ProjectShell.Json.Decimal
import ProjectShell.Json.Printer
import ProjectShell.Json.Reader
import ProjectShell.Json.Skipper
import ProjectShell.Json.Value
import ProjectShell.Limits.Basic
import ProjectShell.Limits.Document
import ProjectShell.Regex.CharSet
import ProjectShell.Regex.Literal
import ProjectShell.Regex.Parser
import ProjectShell.Regex.Program
import ProjectShell.Regex.Replace
import ProjectShell.Regex.Search
import ProjectShell.Regex.Syntax
import ProjectShell.Shell.Line
import ProjectShell.Shell.Operator
import ProjectShell.Shell.Outcome
import ProjectShell.Shell.Stage
import ProjectShell.Shell.Word
import ProjectShell.SortedMap
import ProjectShell.Text.Blank
import ProjectShell.Text.Letters
import ProjectShell.Text.Lines
import ProjectShell.Text.Lowercase
import ProjectShell.Text.Numeral
import ProjectShell.Text.Quoted
import ProjectShell.Text.Resemblance
import ProjectShell.Text.Substring
import ProjectShell.Text.Terminal
import ProjectShell.Timestamp
import ProjectShell.Main
import ProjectShell.Proofs.Quoting
import ProjectShell.Proofs.StoreCalls
import ProjectShell.Proofs.BoundedUndo
import ProjectShell.Proofs.LineUndo
import ProjectShell.Proofs.CommandRequests
import ProjectShell.Proofs.Footprint
import ProjectShell.Proofs.Independence
import ProjectShell.Proofs.Keys
import ProjectShell.Proofs.Reachable
import ProjectShell.Proofs.Reload
import ProjectShell.Proofs.Dependencies
import ProjectShell.Proofs.Operators
import ProjectShell.Proofs.Sequence
import ProjectShell.Proofs.BlankEnds
import ProjectShell.Proofs.Chains
import ProjectShell.Proofs.Atomicity
import ProjectShell.Proofs.Faults
import ProjectShell.Proofs.ResultBounds
import ProjectShell.Proofs.OnePass
import ProjectShell.Proofs.Literals
import ProjectShell.Proofs.SearchAgreement
import ProjectShell.Proofs.Operands
import ProjectShell.Proofs.LineEnds
import ProjectShell.Proofs.Piping
import ProjectShell.Proofs.NamedOrPiped
import ProjectShell.Proofs.Redirections
import ProjectShell.Proofs.Relocation
import ProjectShell.Proofs.DirectoryTransfer
import ProjectShell.Proofs.OverlappingMove
import ProjectShell.Proofs.RegexRuns
import ProjectShell.Proofs.RegexTrees
import ProjectShell.Proofs.GlobMatching
import ProjectShell.Proofs.Removal
import ProjectShell.Proofs.PlainWords
import ProjectShell.Proofs.GlobRemoval
import ProjectShell.Proofs.OwnPaths
import ProjectShell.Proofs.RedirectionFailures
import ProjectShell.Proofs.SearchCaps
import ProjectShell.Proofs.LiteralSearch
import ProjectShell.Proofs.ReplacementTexts
import ProjectShell.Proofs.UnmatchedEdits
import ProjectShell.Proofs.Occurrences
import ProjectShell.Proofs.LiteralMatches
import ProjectShell.Proofs.LiteralSubstitution
import ProjectShell.Proofs.InnerCommands
import ProjectShell.Proofs.ReadValues
import ProjectShell.Proofs.WrittenTokens
import ProjectShell.Proofs.WrittenValues
import ProjectShell.Proofs.ManifestEdits
import ProjectShell.Proofs.PackageEdits
import ProjectShell.Proofs.PackageBatches
import ProjectShell.Proofs.ByteOrder
import ProjectShell.Proofs.SortedLines
import ProjectShell.Proofs.FoundEntries
import ProjectShell.Proofs.DrawnTrees
import ProjectShell.Proofs.OutputCuts
import ProjectShell.Proofs.SelectedLines
import ProjectShell.Proofs.OptionSpellings
import ProjectShell.Proofs.AppendedOutputs
import ProjectShell.Proofs.DirectorySpellings
