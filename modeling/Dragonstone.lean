import Dragonstone.Balance
import Dragonstone.Block
import Dragonstone.CommandLine.Check
import Dragonstone.CommandLine.EditorArguments
import Dragonstone.CommandLine.Options
import Dragonstone.CommandLine.Serve
import Dragonstone.Comment
import Dragonstone.Completion.Candidates
import Dragonstone.Completion.Filter
import Dragonstone.Completion.Item
import Dragonstone.Completion.Snippet
import Dragonstone.Config
import Dragonstone.Config.Merge
import Dragonstone.Decimal.Shortest
import Dragonstone.Definition
import Dragonstone.Diagnostic
import Dragonstone.Editor.Action
import Dragonstone.Editor.Buffer
import Dragonstone.Editor.Desk
import Dragonstone.Editor.Dialog
import Dragonstone.Editor.Highlight
import Dragonstone.Editor.HoverText
import Dragonstone.Editor.Mark
import Dragonstone.Editor.Pane
import Dragonstone.Editor.Popup
import Dragonstone.Editor.Preferences
import Dragonstone.Editor.ProblemList
import Dragonstone.Editor.Theme
import Dragonstone.Editor.Window
import Dragonstone.Editor.Window.Files
import Dragonstone.Editor.Window.Step
import Dragonstone.Files.Directory
import Dragonstone.Files.Path
import Dragonstone.Indentation
import Dragonstone.KeyMap
import Dragonstone.Log
import Dragonstone.Lookup
import Dragonstone.Main
import Dragonstone.Naming
import Dragonstone.Position
import Dragonstone.Proofs.Balance.LineByLine
import Dragonstone.Proofs.Block.Grammar
import Dragonstone.Proofs.Diagnostic.Wording
import Dragonstone.Proofs.Editor.Agreement
import Dragonstone.Proofs.Editor.Desk
import Dragonstone.Proofs.Editor.Papers
import Dragonstone.Proofs.Indentation.Applied
import Dragonstone.Proofs.Indentation.Level
import Dragonstone.Proofs.Indentation.NormalForm
import Dragonstone.Proofs.Indentation.Settled
import Dragonstone.Proofs.LeadingSpace.Balance
import Dragonstone.Proofs.LeadingSpace.Character
import Dragonstone.Proofs.LeadingSpace.Dedent
import Dragonstone.Proofs.LeadingSpace.Definition
import Dragonstone.Proofs.LeadingSpace.Line
import Dragonstone.Proofs.LeadingSpace.Validation
import Dragonstone.Proofs.Server.Publication
import Dragonstone.Proofs.Text.Weaving
import Dragonstone.Proofs.Validation.Nesting
import Dragonstone.Role
import Dragonstone.Server.Protocol
import Dragonstone.Server.State
import Dragonstone.Session
import Dragonstone.Setting
import Dragonstone.Store
import Dragonstone.Symbol
import Dragonstone.Text
import Dragonstone.Text.Alphanumeric
import Dragonstone.Text.DecimalDigit
import Dragonstone.Text.DisplayLine
import Dragonstone.Text.Lines
import Dragonstone.Text.Lowercase
import Dragonstone.Text.Numeral
import Dragonstone.Text.Printable
import Dragonstone.Text.Quoted
import Dragonstone.Text.Ranges
import Dragonstone.Text.Slice
import Dragonstone.Text.Spans
import Dragonstone.Text.Utf8
import Dragonstone.Text.Word
import Dragonstone.Validation
import Dragonstone.Vocabulary
import Dragonstone.Vocabulary.Entries
import Dragonstone.Proofs.Diagnostic.Family
import Dragonstone.Proofs.Validation.Families
import Dragonstone.Proofs.Comment.Nesting
import Dragonstone.Proofs.Validation.CommentNesting
import Dragonstone.Proofs.Validation.ClosedPrefix
import Dragonstone.Proofs.Editor.Core
import Dragonstone.Proofs.Editor.Notice
import Dragonstone.Proofs.Editor.Filing
import Dragonstone.Proofs.Editor.Deed
import Dragonstone.Proofs.Editor.Held
import Dragonstone.Proofs.Editor.LintPass
import Dragonstone.Proofs.Editor.DirtyMarks
import Dragonstone.Proofs.Role.Reading
import Dragonstone.Proofs.Role.Inert
import Dragonstone.Proofs.Text.Word
import Dragonstone.Proofs.Naming.Coverage
import Dragonstone.Proofs.Validation.Remembered
import Dragonstone.Proofs.Validation.Places
import Dragonstone.Proofs.Validation.Order
import Dragonstone.Proofs.Definition.Canonical
import Dragonstone.Proofs.Definition.Front
import Dragonstone.Proofs.CommandLine.Rewritten
import Dragonstone.Proofs.CommandLine.ExitStatus
import Dragonstone.Proofs.Store.Clamping
import Dragonstone.Proofs.Indentation.Simultaneous
import Dragonstone.Proofs.Block.Reopening
import Dragonstone.Proofs.Block.Defining
import Dragonstone.Proofs.Definition.Continued
import Dragonstone.Proofs.Definition.Parts
import Dragonstone.Proofs.Lookup.Identifiers
import Dragonstone.Proofs.Lookup.OwnName
import Dragonstone.Proofs.Lookup.Outline
import Dragonstone.Proofs.Validation.OneLine
import Dragonstone.Proofs.Naming.Reported
import Dragonstone.Proofs.Block.Enclosing
import Dragonstone.Proofs.Validation.Enumerations
import Dragonstone.Proofs.Comment.Interior
import Dragonstone.Proofs.Role.Partition
import Dragonstone.Proofs.Role.Projection
import Dragonstone.Proofs.Balance.Projection
import Dragonstone.Proofs.Validation.Skipped
import Dragonstone.Proofs.Validation.OpenComment
import Dragonstone.Proofs.Lookup.Tokens
import Dragonstone.Proofs.Config.Merging
import Dragonstone.Proofs.Completion.Typed
import Dragonstone.Proofs.Editor.Accepting
import Dragonstone.Proofs.Comment.Strays
import Dragonstone.Proofs.Completion.Expansion
import Dragonstone.Proofs.Completion.Listed
import Dragonstone.Proofs.Completion.TabStop
