import SpanCourier.ApiVersion
import SpanCourier.Channel
import SpanCourier.Channel.Address
import SpanCourier.Channel.IpAddress
import SpanCourier.Channel.Metadata
import SpanCourier.Channel.ServerName
import SpanCourier.Decimal.Shortest
import SpanCourier.Dict
import SpanCourier.Encoder
import SpanCourier.Exporter
import SpanCourier.Failure
import SpanCourier.Health
import SpanCourier.Identifier
import SpanCourier.Json.Escape
import SpanCourier.Json.Fault
import SpanCourier.Json.Number
import SpanCourier.Json.Record
import SpanCourier.Json.Shape
import SpanCourier.Json.Skip
import SpanCourier.Json.Token
import SpanCourier.Json.Value
import SpanCourier.Label
import SpanCourier.Rehearsal
import SpanCourier.Request.Assembly
import SpanCourier.Request.Collation
import SpanCourier.Request.Probe
import SpanCourier.Request.Size
import SpanCourier.Sender
import SpanCourier.Sender.System
import SpanCourier.Sender.Task
import SpanCourier.Settings
import SpanCourier.Settings.Environment
import SpanCourier.Settings.Json
import SpanCourier.Span
import SpanCourier.Span.Json
import SpanCourier.Status
import SpanCourier.Text.Hex
import SpanCourier.Text.Printable
import SpanCourier.Text.Quoted
import SpanCourier.Text.Truncation
import SpanCourier.Text.Utf8
import SpanCourier.Time.Calendar
import SpanCourier.Time.Timestamp
import SpanCourier.Total
import SpanCourier.V1.Fragment
import SpanCourier.V1.Message
import SpanCourier.V2.Message
import SpanCourier.V2.Resource
import SpanCourier.Wire.Message
import SpanCourier.Wire.Record
import SpanCourier.Wire.Time
import SpanCourier.Wire.Varint
import SpanCourier.Proofs.Wire.Length
import SpanCourier.Proofs.Wire.Reading
import SpanCourier.Proofs.Wire.Lawful
import SpanCourier.Proofs.V1.Lawful
import SpanCourier.Proofs.V2.Lawful
import SpanCourier.Proofs.Request.Grouping
import SpanCourier.Proofs.Request.Length
import SpanCourier.Proofs.Request.Reuse
import SpanCourier.Proofs.Request.Encoding
import SpanCourier.Proofs.Request.Overflow
import SpanCourier.Proofs.Delivery
import SpanCourier.Proofs.Request.Collation
import SpanCourier.Proofs.Sender.Flight
import SpanCourier.Proofs.Sender.Observations
import SpanCourier.Proofs.Sender.Closing
import SpanCourier.Proofs.V1.Identifiers
import SpanCourier.Proofs.Dict
import SpanCourier.Proofs.Text.Order
import SpanCourier.Proofs.Precedence
import SpanCourier.Proofs.Wire.Growth
import SpanCourier.Proofs.RoundTrip
import SpanCourier.Proofs.Sender.Handles
import SpanCourier.Proofs.Sender.Cancelling
import SpanCourier.Proofs.Sender.Resolution
import SpanCourier.Proofs.Batching
import SpanCourier.Proofs.Buffers
import SpanCourier.Proofs.Text.Truncation
import SpanCourier.Proofs.Cutting
import SpanCourier.Proofs.Json.Tokens
import SpanCourier.Proofs.Json.Grammar
import SpanCourier.Proofs.Json.Numerals
import SpanCourier.Proofs.Json.Escapes
import SpanCourier.Proofs.Json.Skipping
import SpanCourier.Proofs.Json.Spelling
import SpanCourier.Proofs.Json.Reading
import SpanCourier.Proofs.Json.Records
import SpanCourier.Proofs.ReadBack
import SpanCourier.Proofs.Text.Hex
import SpanCourier.Proofs.Identifier
import SpanCourier.Proofs.Settings.Environment
import SpanCourier.Proofs.Text.Decimal
import SpanCourier.Proofs.Time.Calendar
import SpanCourier.Proofs.V1.Times
import SpanCourier.Proofs.Time.Stamps
import SpanCourier.Proofs.Time.Microseconds
import SpanCourier.Proofs.Request.FieldSize
import SpanCourier.Proofs.Settings.Layers
