import FormatScan.Byte
import FormatScan.Calendar
import FormatScan.Conformance.Artifact
import FormatScan.Conformance.CommandLine
import FormatScan.Conformance.Config
import FormatScan.Conformance.Diff
import FormatScan.Conformance.Error
import FormatScan.Conformance.Execution
import FormatScan.Conformance.Fixture
import FormatScan.Conformance.Rendering
import FormatScan.Conformance.Report
import FormatScan.Conformance.Result
import FormatScan.Conformance.Spec
import FormatScan.Conformance.Sweep
import FormatScan.Files.Disk
import FormatScan.Files.Path
import FormatScan.Files.Store
import FormatScan.Format.Directive
import FormatScan.Format.Field
import FormatScan.Format.Render
import FormatScan.Json.Decode
import FormatScan.Json.Printer
import FormatScan.Json.Real
import FormatScan.Json.Source
import FormatScan.Json.Token
import FormatScan.Json.Value
import FormatScan.Length
import FormatScan.Log.Emitter
import FormatScan.Log.Entry
import FormatScan.Log.Validation
import FormatScan.Main
import FormatScan.Numeral.Digits
import FormatScan.Numeral.Reading
import FormatScan.Operand
import FormatScan.Output.Piece
import FormatScan.Output.Sink
import FormatScan.Proofs.Calendar.Gregorian
import FormatScan.Proofs.Calendar.Written
import FormatScan.Proofs.Conformance.Arrangement
import FormatScan.Proofs.Conformance.Blocks
import FormatScan.Proofs.Conformance.Differences
import FormatScan.Proofs.Conformance.Faithful
import FormatScan.Proofs.Conformance.Fixtures
import FormatScan.Proofs.Conformance.Index
import FormatScan.Proofs.Conformance.Loading
import FormatScan.Proofs.Conformance.Reports
import FormatScan.Proofs.Conformance.Room
import FormatScan.Proofs.Conformance.Specs
import FormatScan.Proofs.Conformance.Sweeping
import FormatScan.Proofs.Conformance.Tallies
import FormatScan.Proofs.Conformance.Verifying
import FormatScan.Proofs.Files.Path
import FormatScan.Proofs.Files.Store
import FormatScan.Proofs.Format.Composition
import FormatScan.Proofs.Format.Denotation
import FormatScan.Proofs.Format.Echo
import FormatScan.Proofs.Format.Failure
import FormatScan.Proofs.Format.Layout
import FormatScan.Proofs.Format.Modifiers
import FormatScan.Proofs.Format.Steps
import FormatScan.Proofs.Format.Stepwise
import FormatScan.Proofs.Format.Taking
import FormatScan.Proofs.Format.Truncation
import FormatScan.Proofs.Format.ZeroBytes
import FormatScan.Proofs.Json.Denotation
import FormatScan.Proofs.Json.Members
import FormatScan.Proofs.Json.Reading
import FormatScan.Proofs.Json.Records
import FormatScan.Proofs.Json.RoundTrip
import FormatScan.Proofs.Json.Spelling
import FormatScan.Proofs.Json.Visible
import FormatScan.Proofs.Length.Counting
import FormatScan.Proofs.Length.Order
import FormatScan.Proofs.Log.Emission
import FormatScan.Proofs.Log.Line
import FormatScan.Proofs.Log.Parts
import FormatScan.Proofs.Log.Run
import FormatScan.Proofs.Machine.Calendar
import FormatScan.Proofs.Machine.Conversions
import FormatScan.Proofs.Machine.Decoder
import FormatScan.Proofs.Machine.Directive
import FormatScan.Proofs.Machine.Encoder
import FormatScan.Proofs.Machine.Field
import FormatScan.Proofs.Machine.Layout
import FormatScan.Proofs.Machine.Operations
import FormatScan.Proofs.Machine.Output
import FormatScan.Proofs.Machine.Printing
import FormatScan.Proofs.Machine.Request
import FormatScan.Proofs.Machine.Safety
import FormatScan.Proofs.Machine.Scanning
import FormatScan.Proofs.Machine.Set
import FormatScan.Proofs.Numeral.Decoding
import FormatScan.Proofs.Numeral.Grammar
import FormatScan.Proofs.Numeral.Inverse
import FormatScan.Proofs.Numeral.Scratch
import FormatScan.Proofs.Numeral.Spelling
import FormatScan.Proofs.Numeral.Value
import FormatScan.Proofs.Operand.InOrder
import FormatScan.Proofs.Output.History
import FormatScan.Proofs.Output.Storage
import FormatScan.Proofs.RoundTrip.Item
import FormatScan.Proofs.RoundTrip.Printing
import FormatScan.Proofs.RoundTrip.Reading
import FormatScan.Proofs.Scan.Blanks
import FormatScan.Proofs.Scan.Buffers
import FormatScan.Proofs.Scan.Composition
import FormatScan.Proofs.Scan.Effect
import FormatScan.Proofs.Scan.Field
import FormatScan.Proofs.Scan.Frame
import FormatScan.Proofs.Scan.HexField
import FormatScan.Proofs.Scan.Joining
import FormatScan.Proofs.Scan.Kinds
import FormatScan.Proofs.Scan.LongestField
import FormatScan.Proofs.Scan.Outcome
import FormatScan.Proofs.Scan.SetExpression
import FormatScan.Proofs.Scan.Steps
import FormatScan.Proofs.Scan.Suppression
import FormatScan.Proofs.Scan.Walk
import FormatScan.Proofs.Text.ByteOrder
import FormatScan.Proofs.Text.Bytes
import FormatScan.Proofs.Text.Delimited
import FormatScan.Proofs.Text.Integer
import FormatScan.Scan.Directive
import FormatScan.Scan.Number
import FormatScan.Scan.Run
import FormatScan.Scan.Set
import FormatScan.Sha256
import FormatScan.Text.Blank
import FormatScan.Text.CharSet
import FormatScan.Text.Extending
import FormatScan.Text.Hex
import FormatScan.Text.Integer
import FormatScan.Text.Lines
import FormatScan.Text.Padded
import FormatScan.Text.Quoted
import FormatScan.Text.Unprintable
import FormatScan.Word
