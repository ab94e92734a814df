import SpaceLink.Io.Sink
import SpaceLink.Text.Numeral
import SpaceLink.Transport.Error

/-! # Packet errors -/
namespace SpaceLink

inductive PacketError where
  | io (source : IoError)
  | connectionClosed
  | truncated (expected received : Nat)
  | bodyTooLarge (size max : Nat)
  | malformed (reason : String)
  | crcMismatch (computed received : UInt16)
  | bodyUnrepresentable (length crcLength : Nat)
  | sequenceAnomaly (apid : UInt16) (expected : Option UInt16) (found : UInt16)
  | messageTooLarge (size max : Nat)
  | transport (error : TransportError)
  deriving DecidableEq

namespace PacketError

private def expectedCount : Option UInt16 → String
  | none => "None"
  | some count => s!"Some({count.toNat})"

def message : PacketError → String
  | io source => "packet I/O error: " ++ source.text
  | connectionClosed => "connection closed"
  | truncated expected received => s!"truncated packet ({received} of {expected} bytes)"
  | bodyTooLarge size max => s!"packet body too large ({size} bytes, max {max})"
  | malformed reason => "malformed packet: " ++ reason
  | crcMismatch computed received =>
    "CRC mismatch (computed 0x" ++ Text.hex 4 computed.toNat ++ ", received 0x" ++
      Text.hex 4 received.toNat ++ ")"
  | bodyUnrepresentable length crcLength =>
    s!"body of {length} bytes cannot be framed (CRC {crcLength} bytes)"
  | sequenceAnomaly apid expected found =>
    s!"segment sequence anomaly on apid {apid.toNat}: expected " ++ expectedCount expected ++
      s!", found {found.toNat}"
  | messageTooLarge size max => s!"segmented message too large ({size} bytes, max {max})"
  | transport error => error.message

/-- A sink that accepts nothing more counts as a closed connection. -/
def ofSink : SinkError → PacketError
  | .closed => connectionClosed
  | .fault error => io error

end PacketError
end SpaceLink
