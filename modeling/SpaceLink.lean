import SpaceLink.BitField
import SpaceLink.Bytes
import SpaceLink.Can.Bus
import SpaceLink.Can.Error
import SpaceLink.Can.Fragmenter
import SpaceLink.Can.Frame
import SpaceLink.Can.Identifier
import SpaceLink.Can.Reassembler
import SpaceLink.Codec.Basic
import SpaceLink.Codec.Flags
import SpaceLink.Codec.Plain
import SpaceLink.Codec.Split
import SpaceLink.Codec.Stream
import SpaceLink.Codec.Value
import SpaceLink.CommandLine.Arguments
import SpaceLink.CommandLine.Failure
import SpaceLink.CommandLine.Fragmenting
import SpaceLink.CommandLine.HeaderText
import SpaceLink.CommandLine.Invocation
import SpaceLink.CommandLine.Listening
import SpaceLink.CommandLine.Log
import SpaceLink.CommandLine.Payload
import SpaceLink.CommandLine.Presentation
import SpaceLink.CommandLine.Report
import SpaceLink.CommandLine.Run
import SpaceLink.CommandLine.Sending
import SpaceLink.CommandLine.World
import SpaceLink.Element.Basic
import SpaceLink.Gathered
import SpaceLink.Io.Error
import SpaceLink.Io.FileTree
import SpaceLink.Io.Sink
import SpaceLink.Io.Source
import SpaceLink.Json.Basic
import SpaceLink.Json.Parser
import SpaceLink.Json.Printer
import SpaceLink.Link.Address
import SpaceLink.Link.CanLink
import SpaceLink.Link.Config
import SpaceLink.Link.ConfigFile
import SpaceLink.Link.Endpoint
import SpaceLink.Link.Error
import SpaceLink.Link.PacketLink
import SpaceLink.Link.PacketListener
import SpaceLink.Link.ResendCache
import SpaceLink.Main
import SpaceLink.Packet.Basic
import SpaceLink.Packet.Crc
import SpaceLink.Packet.Desegmenter
import SpaceLink.Packet.Error
import SpaceLink.Packet.Header
import SpaceLink.Packet.Segmenter
import SpaceLink.Packet.Wire
import SpaceLink.Packet.Writer
import SpaceLink.Pieces
import SpaceLink.SequenceCounter
import SpaceLink.Store
import SpaceLink.Text.Blank
import SpaceLink.Text.Numeral
import SpaceLink.Text.Quoted
import SpaceLink.Text.Split
import SpaceLink.Text.Table
import SpaceLink.Text.Visible
import SpaceLink.Transport.Error
import SpaceLink.Transport.Host
import SpaceLink.Transport.Link
import SpaceLink.Transport.Message
import SpaceLink.Transport.Network
import SpaceLink.Transport.Service
import SpaceLink.Transport.StreamPair
import SpaceLink.Proofs.BitField
import SpaceLink.Proofs.Can.Completeness
import SpaceLink.Proofs.Can.Fragmenter
import SpaceLink.Proofs.Can.Identifier
import SpaceLink.Proofs.Can.Reassembler
import SpaceLink.Proofs.Can.Safety
import SpaceLink.Proofs.Codec.Canonical
import SpaceLink.Proofs.Codec.Delimited
import SpaceLink.Proofs.Codec.Flags
import SpaceLink.Proofs.Codec.FlagPlaces
import SpaceLink.Proofs.Codec.RoundTrip
import SpaceLink.Proofs.Codec.Value
import SpaceLink.Proofs.Outcome
import SpaceLink.Proofs.Io
import SpaceLink.Proofs.Link.ConcurrentSending
import SpaceLink.Proofs.Packet.Alignment
import SpaceLink.Proofs.Packet.Arrival
import SpaceLink.Proofs.Packet.Bijection
import SpaceLink.Proofs.Packet.Crc
import SpaceLink.Proofs.Packet.Damage
import SpaceLink.Proofs.Packet.Desegmenter
import SpaceLink.Proofs.Packet.Header
import SpaceLink.Proofs.Packet.Sections
import SpaceLink.Proofs.Packet.Segmenter
import SpaceLink.Proofs.Packet.Wire
import SpaceLink.Proofs.Packet.Writer
import SpaceLink.Proofs.Pieces
import SpaceLink.Proofs.Run
import SpaceLink.Proofs.SequenceCounter
import SpaceLink.Proofs.Store
import SpaceLink.Proofs.Loss
import SpaceLink.Proofs.Packet.Loss
import SpaceLink.Proofs.Link.BusFailure
import SpaceLink.Proofs.Link.Unframed
import SpaceLink.Proofs.Link.Repeating
import SpaceLink.Proofs.Link.Recovery
import SpaceLink.Proofs.Packet.Dissection
import SpaceLink.Proofs.Link.Reception
import SpaceLink.Proofs.Can.BusLog
import SpaceLink.Proofs.Can.BusTap
import SpaceLink.Proofs.Can.Broadcast
import SpaceLink.Proofs.Link.Calls
import SpaceLink.Proofs.Link.Shutdown
import SpaceLink.Proofs.Link.Capacity
import SpaceLink.Proofs.Row
import SpaceLink.Proofs.Can.Rows
import SpaceLink.Proofs.Packet.Rows
import SpaceLink.Proofs.Can.Fragmentation
import SpaceLink.Proofs.CommandLine.Failure
import SpaceLink.Proofs.Can.Packing
import SpaceLink.Proofs.Can.Memory
import SpaceLink.Proofs.Packet.Segmentation
import SpaceLink.Proofs.Link.ResendCache
import SpaceLink.Proofs.Link.Resending
import SpaceLink.Proofs.SharedCounter
import SpaceLink.Proofs.Packet.Accounting
import SpaceLink.Proofs.Codec.Untyped
import SpaceLink.Proofs.Codec.Size
import SpaceLink.Proofs.Text.Split
import SpaceLink.Proofs.Text.Numeral
import SpaceLink.Proofs.Text.Blank
import SpaceLink.Proofs.Link.Address
import SpaceLink.Proofs.CommandLine.HeaderText
import SpaceLink.Proofs.CommandLine.Payload
