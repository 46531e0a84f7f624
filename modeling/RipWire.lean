import RipWire.Argument.Basic
import RipWire.Argument.Display
import RipWire.Argument.Items
import RipWire.Argument.Key
import RipWire.CommandLine.Arguments
import RipWire.CommandLine.Decode
import RipWire.CommandLine.Encode
import RipWire.CommandLine.Grammar
import RipWire.CommandLine.Help
import RipWire.CommandLine.Run
import RipWire.CommandLine.Token
import RipWire.Datagram.Basic
import RipWire.Datagram.Document
import RipWire.Datagram.Entry
import RipWire.Datagram.Field
import RipWire.Datagram.Header
import RipWire.Datagram.Make
import RipWire.Datagram.Packet
import RipWire.Datagram.Registry
import RipWire.Datagram.Wire
import RipWire.Fault.Basic
import RipWire.Fault.Message
import RipWire.Field.Address
import RipWire.Field.Code
import RipWire.Json.Basic
import RipWire.Json.Reader
import RipWire.Json.Writer
import RipWire.Log.Basic
import RipWire.Log.File
import RipWire.Log.Handler
import RipWire.Log.Level
import RipWire.Log.Message
import RipWire.Log.Session
import RipWire.Main
import RipWire.Number.Binary64
import RipWire.Number.Shortest
import RipWire.Octets.Basic
import RipWire.Octets.Hex
import RipWire.Proofs.Argument.Slices
import RipWire.Proofs.CommandLine.Decoding
import RipWire.Proofs.CommandLine.Dumps
import RipWire.Proofs.CommandLine.Encoding
import RipWire.Proofs.CommandLine.Independence
import RipWire.Proofs.CommandLine.Isolation
import RipWire.Proofs.CommandLine.Layouts
import RipWire.Proofs.CommandLine.LineByLine
import RipWire.Proofs.CommandLine.LogAside
import RipWire.Proofs.CommandLine.Output
import RipWire.Proofs.CommandLine.Piping
import RipWire.Proofs.CommandLine.PipingBack
import RipWire.Proofs.Datagram.AddressText
import RipWire.Proofs.Datagram.Canonical
import RipWire.Proofs.Datagram.Complaints
import RipWire.Proofs.Datagram.Construction
import RipWire.Proofs.Datagram.Document
import RipWire.Proofs.Datagram.Fields
import RipWire.Proofs.Datagram.FirstCheck
import RipWire.Proofs.Datagram.Grammar
import RipWire.Proofs.Datagram.Identity
import RipWire.Proofs.Datagram.Inverse
import RipWire.Proofs.Datagram.Layout
import RipWire.Proofs.Datagram.Meaning
import RipWire.Proofs.Datagram.Members
import RipWire.Proofs.Datagram.Misplaced
import RipWire.Proofs.Datagram.MissingField
import RipWire.Proofs.Datagram.Outcome
import RipWire.Proofs.Datagram.Plain
import RipWire.Proofs.Datagram.Refusal
import RipWire.Proofs.Datagram.Registry
import RipWire.Proofs.Datagram.Reserved
import RipWire.Proofs.Datagram.RoundTrip
import RipWire.Proofs.Datagram.Script
import RipWire.Proofs.Datagram.Soundness
import RipWire.Proofs.Datagram.Splitting
import RipWire.Proofs.Datagram.Truncation
import RipWire.Proofs.Datagram.Unlisted
import RipWire.Proofs.Datagram.Versions
import RipWire.Proofs.Datagram.WellFormed
import RipWire.Proofs.Fault.Checks
import RipWire.Proofs.Fault.Wording
import RipWire.Proofs.Field.Address
import RipWire.Proofs.Field.Given
import RipWire.Proofs.Json.DocumentLines
import RipWire.Proofs.Json.Documents
import RipWire.Proofs.Json.Leaves
import RipWire.Proofs.Json.Pieces
import RipWire.Proofs.Json.Plain
import RipWire.Proofs.Json.RoundTrip
import RipWire.Proofs.Json.Steps
import RipWire.Proofs.Json.Whole
import RipWire.Proofs.Log.Delivery
import RipWire.Proofs.Log.Facade
import RipWire.Proofs.Log.Refused
import RipWire.Proofs.Log.Starting
import RipWire.Proofs.Number.Equal
import RipWire.Proofs.Octets.Digits
import RipWire.Proofs.Octets.Layouts
import RipWire.Proofs.Octets.Lines
import RipWire.Proofs.Octets.Pieces
import RipWire.Proofs.Octets.Records
import RipWire.Proofs.Settings.Failures
import RipWire.Proofs.Settings.IniBreaks
import RipWire.Proofs.Settings.IniFile
import RipWire.Proofs.Settings.IniGrowth
import RipWire.Proofs.Settings.IniLines
import RipWire.Proofs.Settings.Printed
import RipWire.Proofs.Settings.ReadBack
import RipWire.Proofs.Settings.Sessions
import RipWire.Proofs.Text.Trimmed
import RipWire.Settings.Basic
import RipWire.Settings.Configuration
import RipWire.Settings.Ini
import RipWire.Settings.Session
import RipWire.Text.Basic
import RipWire.Text.Decimal
import RipWire.Text.LetterCase
import RipWire.Text.Quoted
