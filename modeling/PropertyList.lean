import PropertyList.Text.Blank
import PropertyList.Text.Quoted
import PropertyList.Text.Utf8
import PropertyList.Text.Block
import PropertyList.Number.Binary64
import PropertyList.Calendar.IsoText
import PropertyList.Base64
import PropertyList.Markup.CodePage
import PropertyList.Markup.NameClass
import PropertyList.Markup.Parse
import PropertyList.Node.Basic
import PropertyList.Run
import PropertyList.Value.Basic
import PropertyList.Leaf.Codec
import PropertyList.Document.Writer
import PropertyList.Document.Reader
import PropertyList.Node.Check
import PropertyList.Node.OfValue
import PropertyList.Value.OfNode
import PropertyList.Value.Filling
import PropertyList.Document.Exchange
import PropertyList.Value.Catalog
import PropertyList.Node.Edit
import PropertyList.Node.Heap
import PropertyList.Proofs.Run
import PropertyList.Proofs.Text.Classes
import PropertyList.Proofs.Text.Utf8
import PropertyList.Proofs.Number.Positional
import PropertyList.Proofs.Number.Rounding
import PropertyList.Proofs.Number.FixedPoint
import PropertyList.Proofs.Number.Nearest
import PropertyList.Proofs.Number.Decimal
import PropertyList.Proofs.Base64
import PropertyList.Proofs.Calendar.Day
import PropertyList.Proofs.Calendar.IsoText
import PropertyList.Proofs.Leaf.Signed
import PropertyList.Proofs.Leaf.RealFront
import PropertyList.Proofs.Leaf.Real
import PropertyList.Proofs.Leaf.Precision
import PropertyList.Proofs.Leaf.Integer
import PropertyList.Proofs.Leaf.Data
import PropertyList.Proofs.Leaf.Spread
import PropertyList.Proofs.Leaf.Alphabet
import PropertyList.Proofs.Leaf.Padding
import PropertyList.Proofs.Leaf.Date
import PropertyList.Proofs.Leaf.Codec
import PropertyList.Proofs.Leaf.Strict
import PropertyList.Proofs.Leaf.Failure
import PropertyList.Proofs.Markup.Reference
import PropertyList.Proofs.Markup.Tag
import PropertyList.Proofs.Markup.Content
import PropertyList.Proofs.Markup.Prolog
import PropertyList.Proofs.Markup.Characters
import PropertyList.Proofs.Document.Writer
import PropertyList.Proofs.Document.Escaping
import PropertyList.Proofs.Document.Reader
import PropertyList.Proofs.Document.Layout
import PropertyList.Proofs.Document.RoundTrip
import PropertyList.Proofs.Document.FixedPoint
import PropertyList.Proofs.Document.Strict
import PropertyList.Proofs.Document.Failure
import PropertyList.Proofs.Document.Element
import PropertyList.Proofs.Document.Bytes
import PropertyList.Proofs.Document.Recursion
import PropertyList.Proofs.Leaf.Valid
import PropertyList.Proofs.Value.OfNode
import PropertyList.Proofs.Value.Regular
import PropertyList.Proofs.Value.Fold
import PropertyList.Proofs.Value.Room
import PropertyList.Proofs.Leaf.Kind
import PropertyList.Proofs.Document.Kinds
import PropertyList.Proofs.Document.Locality
import PropertyList.Proofs.Leaf.Silence
import PropertyList.Proofs.Document.Sound
import PropertyList.Proofs.Leaf.Moment
import PropertyList.Proofs.Calendar.Elapsed
import PropertyList.Proofs.Leaf.Instant
import PropertyList.Proofs.Leaf.LocalTime
import PropertyList.Proofs.Value.Normal
import PropertyList.Proofs.Value.RoundTrip
import PropertyList.Proofs.Document.Silence
import PropertyList.Proofs.Value.Typing
import PropertyList.Proofs.Value.Record
import PropertyList.Proofs.Leaf.IntegerFront
import PropertyList.Proofs.Leaf.Unsigned
import PropertyList.Proofs.Leaf.RealLiteral
import PropertyList.Proofs.Leaf.LongestReal
import PropertyList.Proofs.Markup.DeclaredEncoding
import PropertyList.Proofs.Document.Refused
import PropertyList.Proofs.Document.DeclaredEncoding
import PropertyList.Proofs.Node.Heap
import PropertyList.Proofs.Markup.Denotation
import PropertyList.Proofs.Markup.Segment
import PropertyList.Proofs.Markup.Segmentation
import PropertyList.Proofs.Document.Enclosed
import PropertyList.Proofs.Document.Entities
import PropertyList.Proofs.Value.Entries
import PropertyList.Proofs.Value.Filling
import PropertyList.Proofs.Value.Representable
import PropertyList.Proofs.Value.Paired
import PropertyList.Proofs.Value.Unfolded
import PropertyList.Proofs.Text.Block
import PropertyList.Proofs.Leaf.WholeReal
import PropertyList.Proofs.Value.Defect
import PropertyList.Proofs.Value.Placed
import PropertyList.Proofs.Node.Append
