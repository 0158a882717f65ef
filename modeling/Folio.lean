import Folio.Text.Trim
import Folio.Text.Case
import Folio.Text.Quoted
import Folio.Entity
import Folio.Decimal.Written
import Folio.Value
import Folio.Yaml.Scalar
import Folio.Yaml.Lexer
import Folio.Yaml.Node
import Folio.Yaml.Resolve
import Folio.Calendar.Reader
import Folio.Frontmatter
import Folio.Html.Walk
import Folio.Log
import Folio.Slug
import Folio.CodeMeta
import Folio.CodeMeta.Scan
import Folio.Include
import Folio.Fragment.Token
import Folio.Fragment
import Folio.Markdown.Glyph
import Folio.Markdown.Destination
import Folio.Markdown.Shape
import Folio.Markdown.Dialect
import Folio.Markdown.Table
import Folio.Markdown.HtmlBlock
import Folio.Markdown.Block
import Folio.Markdown.Page
import Folio.Markdown.Address
import Folio.Markdown.Piece
import Folio.Markdown.Phrase
import Folio.Markdown.Tree
import Folio.Rendering
import Folio.Heading
import Folio.Outline
import Folio.CodeBlock.Highlighting
import Folio.CodeBlock.Copying
import Folio.Draft
import Folio.Pipeline
import Folio.Batch.Entry
import Folio.Batch.Workers
import Folio.Batch
import Folio.Relay
import Folio.Tracker
import Folio.Selector
import Folio.Proofs.Slugger
import Folio.Proofs.Slugger.FirstFree
import Folio.Proofs.HeadingIds
import Folio.Proofs.Path
import Folio.Proofs.Path.Canonical
import Folio.Proofs.Confinement
import Folio.Proofs.Footnote.Tally
import Folio.Proofs.Footnote.Links
import Folio.Proofs.Footnote.Page
import Folio.Proofs.Footnote.Consistency
import Folio.Proofs.Footnote.Ids
import Folio.Proofs.Shift.Glyph
import Folio.Proofs.Shift.Line
import Folio.Proofs.Shift.Shape
import Folio.Proofs.Shift.Page
import Folio.Proofs.Shift.Piece
import Folio.Proofs.Shift.Phrase
import Folio.Proofs.Shift.Tree
import Folio.Proofs.Dialect
import Folio.Proofs.Shift.Rendering
import Folio.Proofs.Flow
import Folio.Proofs.Shift.Draft
import Folio.Proofs.Blank
import Folio.Proofs.Frontmatter.Lines
import Folio.Proofs.Frontmatter.Body
import Folio.Proofs.Frontmatter.Grammar
import Folio.Proofs.Frontmatter.Steps
import Folio.Proofs.Frontmatter.Markup
import Folio.Proofs.Frontmatter.Transform
import Folio.Proofs.Html.Forest
import Folio.Proofs.Html.Nesting
import Folio.Proofs.Html.Outline
import Folio.Proofs.Html.Anchors
import Folio.Proofs.Html.Copying
import Folio.Proofs.Html.Controls
import Folio.Proofs.Html.Containers
import Folio.Proofs.Html.Steps
import Folio.Proofs.Html.Acceptance
import Folio.Proofs.Html.Order
import Folio.Proofs.Html.Roots
import Folio.Proofs.Html.Headings
import Folio.Proofs.Html.Texts
import Folio.Proofs.Html.Contents
import Folio.Proofs.HeadingIds.FullText
import Folio.Proofs.Highlighting.Exchanges
import Folio.Proofs.Highlighting.Ends
import Folio.Proofs.Highlighting.Answered
import Folio.Proofs.Highlighting
import Folio.Proofs.Highlighting.Frame
import Folio.Proofs.Highlighting.Runs
import Folio.Proofs.Html.Blocks
import Folio.Proofs.Fences
import Folio.Proofs.Rendering.Definitions
import Folio.Proofs.Rendering.Texts
import Folio.Proofs.Rendering.Comparison
import Folio.Proofs.Rendering.Rewriting
import Folio.Proofs.Rendering.Lockstep
import Folio.Proofs.Rendering.References
import Folio.Proofs.Rendering.Tightness
import Folio.Proofs.Tracker.History
import Folio.Proofs.Tracker.Marker
import Folio.Proofs.Batch.Workers
import Folio.Proofs.Batch.Results
import Folio.Proofs.Relay.Traffic
import Folio.Proofs.Relay.Steps
import Folio.Proofs.Relay.Sound
import Folio.Proofs.CodeMeta.Grammar
import Folio.Proofs.CodeMeta.Printing
import Folio.Proofs.Fragment.Tags
import Folio.Proofs.Fragment.Printing
import Folio.Proofs.Highlighting.Texts
import Folio.Proofs.Rendering.Nesting
import Folio.Proofs.Rendering.Tags
import Folio.Proofs.Text.Words
import Folio.Proofs.Draft.Includes
import Folio.Proofs.Draft.Words
import Folio.Proofs.Selector
import Folio.Proofs.Frontmatter.RoundTrip
import Folio.Proofs.Text.Case
import Folio.Proofs.Slugger.Base
import Folio.Proofs.Html.Properties
import Folio.Proofs.Html.Walk
import Folio.Proofs.CodeMeta.Scan
