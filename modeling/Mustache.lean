import Mustache.Cache
import Mustache.Context
import Mustache.Decimal.Binary64
import Mustache.Decimal.Literal
import Mustache.Decimal.Shortest
import Mustache.Delimiters
import Mustache.Engine
import Mustache.Engine.Builder
import Mustache.Entries
import Mustache.Error
import Mustache.Error.Frame
import Mustache.Hash.Sha256
import Mustache.Html
import Mustache.Lambda
import Mustache.Lambda.Script
import Mustache.Lambda.Stock
import Mustache.Loader
import Mustache.Markup.Line
import Mustache.Markup.Node
import Mustache.Markup.Token
import Mustache.Pragma
import Mustache.Program
import Mustache.Program.Compile
import Mustache.Proofs.Engine.Attended
import Mustache.Proofs.Engine.Configured
import Mustache.Proofs.Engine.Errands
import Mustache.Proofs.Engine.Fetched
import Mustache.Proofs.Engine.Fetching
import Mustache.Proofs.Engine.Growing
import Mustache.Proofs.Engine.Identity
import Mustache.Proofs.Entries
import Mustache.Proofs.Error.Framed
import Mustache.Proofs.Html
import Mustache.Proofs.Inert
import Mustache.Proofs.Markup.Appended
import Mustache.Proofs.Markup.Bracketed
import Mustache.Proofs.Markup.Delimited
import Mustache.Proofs.Markup.Flawed
import Mustache.Proofs.Markup.Force
import Mustache.Proofs.Markup.Grammar
import Mustache.Proofs.Markup.Inserted
import Mustache.Proofs.Markup.Moved
import Mustache.Proofs.Markup.Nests
import Mustache.Proofs.Markup.Pieces
import Mustache.Proofs.Markup.Reading
import Mustache.Proofs.Markup.Scanned
import Mustache.Proofs.Markup.Stacks
import Mustache.Proofs.Markup.Standalone
import Mustache.Proofs.Markup.Tidied
import Mustache.Proofs.Program.Bodies
import Mustache.Proofs.Program.Deduplication
import Mustache.Proofs.Program.Delimited
import Mustache.Proofs.Program.Drafted
import Mustache.Proofs.Program.Forward
import Mustache.Proofs.Program.Identity
import Mustache.Proofs.Program.Kept
import Mustache.Proofs.Program.Lined
import Mustache.Proofs.Program.Linked
import Mustache.Proofs.Program.Locality
import Mustache.Proofs.Program.Plain
import Mustache.Proofs.Program.Pointed
import Mustache.Proofs.Program.Ready
import Mustache.Proofs.Program.Shallow
import Mustache.Proofs.Program.Sharing
import Mustache.Proofs.Program.Traced
import Mustache.Proofs.Program.Trails
import Mustache.Proofs.Program.Unmarked
import Mustache.Proofs.Program.Untagged
import Mustache.Proofs.Render.Abreast
import Mustache.Proofs.Render.Accounted
import Mustache.Proofs.Render.Alike
import Mustache.Proofs.Render.Appended
import Mustache.Proofs.Render.Balanced
import Mustache.Proofs.Render.Blamed
import Mustache.Proofs.Render.Commented
import Mustache.Proofs.Render.Correct
import Mustache.Proofs.Render.Direct
import Mustache.Proofs.Render.Displaced
import Mustache.Proofs.Render.Escaped
import Mustache.Proofs.Render.Faultless
import Mustache.Proofs.Render.Helped
import Mustache.Proofs.Render.Indented
import Mustache.Proofs.Render.Located
import Mustache.Proofs.Render.Noted
import Mustache.Proofs.Render.Overrides
import Mustache.Proofs.Render.Paired
import Mustache.Proofs.Render.Parts
import Mustache.Proofs.Render.Plan
import Mustache.Proofs.Render.Raised
import Mustache.Proofs.Render.Safe
import Mustache.Proofs.Render.Segments
import Mustache.Proofs.Render.Simulates
import Mustache.Proofs.Render.Sited
import Mustache.Proofs.Render.Stepping
import Mustache.Proofs.Render.Strokes
import Mustache.Proofs.Render.Tables
import Mustache.Proofs.Render.Terminates
import Mustache.Proofs.Render.Verbatim
import Mustache.Proofs.Render.Watched
import Mustache.Proofs.Render.Written
import Mustache.Proofs.Session.Answers
import Mustache.Proofs.Session.Attended
import Mustache.Proofs.Session.Stocked
import Mustache.Proofs.Session.Transparent
import Mustache.Proofs.Text.Covered
import Mustache.Proofs.Text.Indented
import Mustache.Proofs.Text.Search
import Mustache.Proofs.Value.Equality
import Mustache.Proofs.Value.Interchanged
import Mustache.Proofs.Value.Parts
import Mustache.Render
import Mustache.Render.Machine
import Mustache.Render.Step
import Mustache.Session
import Mustache.Span
import Mustache.Summary
import Mustache.Text.Blank
import Mustache.Text.Bytes
import Mustache.Text.Cut
import Mustache.Text.Emoji
import Mustache.Text.Ligature
import Mustache.Text.PrintableTable
import Mustache.Text.Quoted
import Mustache.Text.Width
import Mustache.Text.WidthTable
import Mustache.Value
import Mustache.Value.Document
