import MarkdownNodes.Node.Html
import MarkdownNodes.Node.Json
import MarkdownNodes.Render.Describe
import MarkdownNodes.Token.Equality
import MarkdownNodes.Token.Make
import MarkdownNodes.Token.OfText
import MarkdownNodes.Proofs.Render.Injection
import MarkdownNodes.Proofs.Render.Links
import MarkdownNodes.Proofs.Render.Silence
import MarkdownNodes.Proofs.Render.Strictness
import MarkdownNodes.Proofs.Render.Concord
import MarkdownNodes.Proofs.Token.Slot
import MarkdownNodes.Proofs.Token.Writing
import MarkdownNodes.Proofs.Node.Outline
import MarkdownNodes.Proofs.Node.Readable
import MarkdownNodes.Proofs.Node.Json
import MarkdownNodes.Proofs.Node.EmptyTags
import MarkdownNodes.Proofs.Render.Itinerary
import MarkdownNodes.Proofs.Render.Progress
import MarkdownNodes.Proofs.Render.Offered
import MarkdownNodes.Proofs.Render.Failure
import MarkdownNodes.Proofs.Render.Overrides
import MarkdownNodes.Proofs.Token.Rewrite
import MarkdownNodes.Proofs.Render.Agreement
import MarkdownNodes.Proofs.Render.Styles
import MarkdownNodes.Proofs.Render.Addresses
import MarkdownNodes.Proofs.Render.Unseen
import MarkdownNodes.Proofs.Render.Imitation
import MarkdownNodes.Proofs.Render.Wording
import MarkdownNodes.Proofs.Json.Complete
import MarkdownNodes.Proofs.Json.SameValue
import MarkdownNodes.Proofs.Token.FieldOrder
import MarkdownNodes.Proofs.Token.TextReading
import MarkdownNodes.Proofs.Json.Sound
import MarkdownNodes.Proofs.Text.Percent
import MarkdownNodes.Proofs.Text.Reference
import MarkdownNodes.Proofs.Render.Language
import MarkdownNodes.Proofs.Text.Meaning
import MarkdownNodes.Proofs.Token.Alignment
import MarkdownNodes.Proofs.Render.Grid
import MarkdownNodes.Proofs.Render.Checkboxes
import MarkdownNodes.Proofs.Render.Registration
import MarkdownNodes.Proofs.Token.Flattening
import MarkdownNodes.Proofs.Render.TextOfHtml
import MarkdownNodes.Proofs.Render.Nesting
