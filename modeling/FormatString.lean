import FormatString.Text.CodeUnit
import FormatString.Text.Encoding
import FormatString.Text.Transcode
import FormatString.Number.IntType
import FormatString.Number.Radix
import FormatString.Number.IntText
import FormatString.Number.Rounding
import FormatString.Number.Binary
import FormatString.Number.Decimal
import FormatString.Number.FloatText
import FormatString.Directive.Conversion
import FormatString.Directive.Basic
import FormatString.Directive.ScanSet
import FormatString.Directive.Parse
import FormatString.Template.Piece
import FormatString.Template.Visit
import FormatString.Diagnostic
import FormatString.Text.Printable
import FormatString.Text.Quoted
import FormatString.Config
import FormatString.Argument
import FormatString.Writer.Output
import FormatString.Writer.Field
import FormatString.Writer.Rendering
import FormatString.Writer.Ordered
import FormatString.Writer.Sink
import FormatString.Writer.Format
import FormatString.Reader.Target
import FormatString.Reader.State
import FormatString.Reader.Scan
import FormatString.Proofs.Writer.Delivery
import FormatString.Proofs.Text.Boundary
import FormatString.Proofs.Directive.Grammar
import FormatString.Proofs.Directive.Parse
import FormatString.Proofs.Template.Pieces
import FormatString.Proofs.Writer.Rendering
import FormatString.Proofs.Writer.Split
import FormatString.Proofs.Directive.Unslot
import FormatString.Proofs.Number.IntText
import FormatString.Proofs.Number.IntType
import FormatString.Proofs.Number.Parsed
import FormatString.Proofs.Number.Literal
import FormatString.Proofs.Reader.Value
import FormatString.Proofs.RoundTrip
import FormatString.Proofs.Writer.Ordered
import FormatString.Proofs.Directive.ScanSet
import FormatString.Proofs.Template.Cut
import FormatString.Proofs.Template.Malformed
import FormatString.Proofs.Writer.Failure
import FormatString.Proofs.Writer.Validation
import FormatString.Proofs.Reader.Step
import FormatString.Proofs.Reader.Run
import FormatString.Proofs.Reader.Assignment
import FormatString.Proofs.Reader.Resume
import FormatString.Proofs.Reader.Split
import FormatString.Proofs.Text.Encoded
import FormatString.Proofs.Directive.Encoded
import FormatString.Proofs.Template.Encoded
import FormatString.Proofs.Reader.Encoded
import FormatString.Proofs.Reader.Widths
import FormatString.Proofs.Number.Decimal
import FormatString.Proofs.Writer.Encoded
import FormatString.Proofs.Writer.Requests
import FormatString.Proofs.Writer.Widths
import FormatString.Proofs.Directive.Spelling
import FormatString.Proofs.Template.Visit
import FormatString.Proofs.Number.Rounding
import FormatString.Proofs.Number.Significant
import FormatString.Proofs.Writer.Shortest
import FormatString.Proofs.Text.Transcode
import FormatString.Proofs.Directive.Sound
import FormatString.Proofs.Writer.Refusal
import FormatString.Proofs.Reader.Refusal
import FormatString.Proofs.Fallback
import FormatString.Proofs.Number.FloatLiteral
import FormatString.Proofs.Reader.Reports
import FormatString.Proofs.Writer.Reports
import FormatString.Proofs.Diagnostics
import FormatString.Proofs.Number.Nearest
import FormatString.Proofs.Number.Separation
import FormatString.Proofs.Number.DecimalText
import FormatString.Proofs.Number.Rendered
import FormatString.Proofs.Writer.Floats
import FormatString.Proofs.Reader.Floats
import FormatString.Proofs.FloatRoundTrip
import FormatString.Proofs.Number.WrittenInt
import FormatString.Proofs.Number.FloatGrammar
import FormatString.Proofs.Number.Overflow
import FormatString.Proofs.Number.LongestFloat
import FormatString.Proofs.Access.Slice
import FormatString.Proofs.Access.Directive
import FormatString.Proofs.Access.Float
import FormatString.Proofs.Access.Template
import FormatString.Proofs.Access.Reader
import FormatString.Proofs.Access.Storage
import FormatString.Proofs.Access.Bounds
import FormatString.Proofs.Number.NumberText
import FormatString.Proofs.Number.Truncation
import FormatString.Proofs.Number.NearestMultiple
import FormatString.Proofs.Number.CorrectRounding
import FormatString.Proofs.Writer.Padding
import FormatString.Proofs.Writer.Locality
import FormatString.Proofs.Writer.Stars
import FormatString.Proofs.Text.Prefix
import FormatString.Proofs.Writer.Strings
import FormatString.Proofs.Writer.Grouping
import FormatString.Proofs.Directive.SetNotation
import FormatString.Proofs.Reader.Sets
import FormatString.Proofs.Text.Decoder
import FormatString.Proofs.Number.Shortening
import FormatString.Proofs.Reader.Moved
import FormatString.Proofs.Reader.Blanks
import FormatString.Proofs.Reader.FieldWidth
import FormatString.Proofs.Literals
import FormatString.Proofs.Reader.EmptyInput
import FormatString.Proofs.Number.Reinterpretation
