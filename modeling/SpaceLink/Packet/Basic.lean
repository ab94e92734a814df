import SpaceLink.Packet.Crc
import SpaceLink.Packet.Header
import SpaceLink.Transport.Message

/-! # Packets and framing options -/
namespace SpaceLink

/-- A space packet. The qualifier is on the wire only where the framing says so; the properties are
the receiver's. -/
structure Packet where
  header : Header
  qualifier : UInt16 := 0
  body : Bytes
  properties : Properties := []
  deriving DecidableEq

/-- Options that both ends of a packet stream share. -/
structure Framing where
  qualifierInMessage : Bool := false
  /-- The qualifier of received packets when it is not on the wire. -/
  defaultQualifier : UInt16 := 0
  crc : Option Crc := none
  /-- The longest body accepted, without its checksum. -/
  maxBodySize : Nat := 65536
  deriving DecidableEq

namespace Framing

/-- The longest data field that the length field can tell. -/
def maxDataField : Nat := 65536

def qualifierSize : Nat := 2

def qualifierLength (f : Framing) : Nat := if f.qualifierInMessage then qualifierSize else 0

def crcLength (f : Framing) : Nat := if f.crc.isSome then Crc.size else 0

/-- The body limit, brought down to what a length field can tell. -/
def effectiveMaxBody (f : Framing) : Nat := min f.maxBodySize maxDataField

end Framing

def Packet.wireSize (p : Packet) (f : Framing) : Nat :=
  f.qualifierLength + Header.size + p.body.length + f.crcLength

end SpaceLink
