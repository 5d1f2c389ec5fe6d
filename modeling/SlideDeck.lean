import SlideDeck.Build.Scheduler
import SlideDeck.Web.Request
import SlideDeck.Main
import SlideDeck.Proofs.Build.Interleaving
import SlideDeck.Proofs.Text.Search
import SlideDeck.Proofs.Html.Marked
import SlideDeck.Proofs.Html.Entity
import SlideDeck.Proofs.Html.Fragment
import SlideDeck.Proofs.Html.Code
import SlideDeck.Proofs.Text.Lines
import SlideDeck.Proofs.Latex.Depth
import SlideDeck.Proofs.Latex.Guarded
import SlideDeck.Proofs.Latex.Matching
import SlideDeck.Proofs.Inline.Formatted
import SlideDeck.Proofs.Latex.Environment
import SlideDeck.Proofs.Latex.Escaping
import SlideDeck.Proofs.Lint.Underscore
import SlideDeck.Proofs.Lint.Fit
import SlideDeck.Proofs.Lint.Blockers
import SlideDeck.Proofs.Lint.Tracker
import SlideDeck.Proofs.Lint.Listing
import SlideDeck.Proofs.Lint.Rule
import SlideDeck.Proofs.Lint.Braces
import SlideDeck.Proofs.Lint.Nested
import SlideDeck.Proofs.Lint.Comment
import SlideDeck.Proofs.Markdown.Fences
import SlideDeck.Proofs.Markdown.Transcript
import SlideDeck.Proofs.Markdown.Trace
import SlideDeck.Proofs.Slide.Block
import SlideDeck.Proofs.Slide.Fence
import SlideDeck.Proofs.Slide.Diagram
import SlideDeck.Proofs.Slide.Page
import SlideDeck.Proofs.Slide.Body
import SlideDeck.Proofs.Document.Parts
import SlideDeck.Proofs.Document.Gate
import SlideDeck.Proofs.Document.ReadBack
import SlideDeck.Proofs.Document.Code
import SlideDeck.Proofs.Document.TitlePage
import SlideDeck.Proofs.Html.TagReader
import SlideDeck.Proofs.Html.ListTag
import SlideDeck.Proofs.Text.Silent
import SlideDeck.Proofs.Html.Strand
import SlideDeck.Proofs.Html.Weaving
import SlideDeck.Proofs.Html.Tabular
import SlideDeck.Proofs.Html.Woven
import SlideDeck.Proofs.Html.Commands
import SlideDeck.Proofs.Html.Leftover
import SlideDeck.Proofs.Text.Wordwise
import SlideDeck.Proofs.Text.Replacement
import SlideDeck.Proofs.Html.Layout
import SlideDeck.Proofs.Html.Closing
import SlideDeck.Proofs.Document.Lists
import SlideDeck.Proofs.Document.Emoji
import SlideDeck.Proofs.Document.LineEnds
import SlideDeck.Proofs.Document.Notes
import SlideDeck.Proofs.Latex.Option
import SlideDeck.Proofs.Document.Options
import SlideDeck.Proofs.Text.Utf8
import SlideDeck.Proofs.Path.Child
import SlideDeck.Proofs.Path.Ending
import SlideDeck.Proofs.Web.Request
import SlideDeck.Proofs.Files.Walk
import SlideDeck.Proofs.Files.Change
import SlideDeck.Proofs.Workspace.Activity
import SlideDeck.Proofs.Files.Directory
import SlideDeck.Proofs.Toml.Quoted
import SlideDeck.Proofs.Toml.Document
import SlideDeck.Proofs.Files.Listing
import SlideDeck.Proofs.Theme.Listing
import SlideDeck.Proofs.Theme.Saving
import SlideDeck.Proofs.Theme.Shelf
import SlideDeck.Proofs.CommandLine.Session
import SlideDeck.Proofs.Build.Compilation
import SlideDeck.Proofs.Build.Gate
import SlideDeck.Proofs.Html.Line
import SlideDeck.Proofs.Html.Escaped
import SlideDeck.Proofs.Inline.Safe
import SlideDeck.Proofs.Html.InlineCode
import SlideDeck.Proofs.Html.Emphasis
import SlideDeck.Proofs.Html.Comment
import SlideDeck.Proofs.Html.NoteEnd
import SlideDeck.Proofs.Slide.Items
import SlideDeck.Proofs.Document.Tables
import SlideDeck.Proofs.Slide.Separator
import SlideDeck.Proofs.Markdown.Title
import SlideDeck.Proofs.Markdown.Append
import SlideDeck.Proofs.Document.Title
import SlideDeck.Proofs.Document.NoteOption
import SlideDeck.Proofs.Slide.Listing
import SlideDeck.Proofs.Document.Fragile
import SlideDeck.Proofs.Keyed
import SlideDeck.Proofs.Diagram.Grammar
import SlideDeck.Proofs.Diagram.Nodes
import SlideDeck.Proofs.Diagram.Picture
import SlideDeck.Proofs.Diagram.Edges
import SlideDeck.Proofs.Text.Number
import SlideDeck.Proofs.Build.PageRange
import SlideDeck.Proofs.Inline.Emoji
import SlideDeck.Proofs.Path.Extension
import SlideDeck.Proofs.Files.Beside
import SlideDeck.Proofs.CommandLine.Input
import SlideDeck.Proofs.Build.DirectorySearch
import SlideDeck.Proofs.Build.PageImage
import SlideDeck.Proofs.Build.Preview
