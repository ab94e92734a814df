import SpaceLink.Gathered
import SpaceLink.Io.Source
import SpaceLink.Packet.Basic
import SpaceLink.Packet.Error

/-! # Packets on the wire

An optional qualifier, the header, the body and an optional checksum of header and body. The length
field counts body and checksum, less one, so neither an empty nor an overlong data field can be
framed. Reading takes exactly one packet from a source, and tells a source that ended before the
packet from one that ended inside it.
-/
namespace SpaceLink

/-- A step that appends to a buffer. What it wrote stays written when it fails. -/
abbrev PacketWriting := ExceptT PacketError (StateM Gathered) Unit

namespace PacketWriting

def put (piece : Bytes) : PacketWriting := fun buffer => (.ok (), buffer.append piece)

/-- The checksum of what stands before it, where there is one. -/
def checksum (f : Framing) (rawHeader body : Bytes) : PacketWriting := do
  if let some crc := f.crc then put (Bytes.ofWord 2 (crc.checksum rawHeader body).toNat)

/-- Appends one packet, unless its body is over the limit or cannot be framed. -/
def packet (f : Framing) (p : Packet) : PacketWriting :=
  let dataLength := p.body.length + f.crcLength
  if f.effectiveMaxBody < p.body.length then
    throw (.bodyTooLarge p.body.length f.effectiveMaxBody)
  else if dataLength = 0 ∨ Framing.maxDataField < dataLength then
    throw (.bodyUnrepresentable p.body.length f.crcLength)
  else do
    let header := p.header.toBytes (UInt16.ofNat (dataLength - 1))
    if f.qualifierInMessage then put (Bytes.ofWord 2 p.qualifier.toNat)
    put header
    put p.body
    checksum f header p.body

/-- What a step makes of an empty buffer. -/
def toBytes (step : PacketWriting) : Except PacketError Bytes :=
  match step .empty with
  | (.ok (), buffer) => .ok buffer.bytes
  | (.error error, _) => .error error

end PacketWriting

def Packet.encode (f : Framing) (p : Packet) : Except PacketError Bytes :=
  (PacketWriting.packet f p).toBytes

/-- A step that reads from a source. What it took stays taken when it fails. -/
abbrev PacketReading (α : Type) := ExceptT PacketError (StateM Source) α

namespace PacketReading

/-- Reads `size` bytes, after `received` bytes of a packet that is known to need `expected`. -/
def exactly (received expected size : Nat) : PacketReading Bytes := fun source =>
  match source.fill size with
  | (.error error, rest) => (.error (.io error), rest)
  | (.ok bytes, rest) =>
    let received := received + bytes.length
    if bytes.length = size then (.ok bytes, rest)
    else if received = 0 then (.error .connectionClosed, rest)
    else (.error (.truncated expected received), rest)

/-- The qualifier that stands in front of a packet, or else the one the framing gives it. -/
def qualifier (f : Framing) : PacketReading UInt16 :=
  if f.qualifierInMessage then
    (UInt16.ofNat ∘ Bytes.word) <$> exactly 0 f.qualifierLength f.qualifierLength
  else pure f.defaultQualifier

/-- How much of a data field is body, unless the body is over the limit. -/
def bodyLength (f : Framing) (dataLength : Nat) : PacketReading Nat :=
  let bodyLength := dataLength - f.crcLength
  if dataLength < f.crcLength then
    throw (.malformed s!"data field of {dataLength} bytes cannot hold a {f.crcLength}-byte CRC")
  else if f.effectiveMaxBody < bodyLength then
    throw (.bodyTooLarge bodyLength f.effectiveMaxBody)
  else pure bodyLength

/-- Reads the checksum, where there is one, and compares it. -/
def checksum (f : Framing) (received expected : Nat) (rawHeader body : Bytes) :
    PacketReading Unit := do
  if let some crc := f.crc then
    let trailer ← exactly received expected Crc.size
    let found := UInt16.ofNat (Bytes.word trailer)
    let computed := crc.checksum rawHeader body
    if computed ≠ found then throw (.crcMismatch computed found)

/-- Reads one packet. A length over the limit is refused before the body is read. -/
def packet (f : Framing) : PacketReading Packet := do
  let lead := f.qualifierLength
  let start := lead + Header.size
  let qualifier ← qualifier f
  let rawHeader ← exactly lead start Header.size
  let (header, lengthField) := Header.ofBytes rawHeader
  let dataLength := lengthField.toNat + 1
  let expected := start + dataLength
  let bodyLength ← bodyLength f dataLength
  let body ← exactly start expected bodyLength
  checksum f (start + bodyLength) expected rawHeader body
  return { header := header, qualifier := qualifier, body := body }

end PacketReading

namespace Packet

def read (f : Framing) (source : Source) : Except PacketError Packet × Source :=
  PacketReading.packet f source

/-- Reads a byte string that holds one packet and nothing else. -/
def decode (f : Framing) (bytes : Bytes) : Except PacketError Packet :=
  match read f (.ofBytes bytes) with
  | (.error error, _) => .error error
  | (.ok packet, rest) =>
    let left := Source.contents rest
    if left.isEmpty then .ok packet
    else .error (.malformed s!"{left.length} bytes after the end of the packet")

/-- The encodings of a batch, back to back, unless one of its packets has none. -/
def encodeAll (f : Framing) (packets : List Packet) : Except PacketError Bytes :=
  PacketWriting.toBytes (packets.forM (PacketWriting.packet f))

/-- Sends a batch in one go and flushes. A batch with a packet that has no encoding leaves the sink
alone. -/
def writeAll (f : Framing) (packets : List Packet) (sink : Sink) :
    Except PacketError Unit × Sink :=
  match encodeAll f packets with
  | .error error => (.error error, sink)
  | .ok wire =>
    let (result, sink) := sink.send wire
    (result.mapError PacketError.ofSink, sink)

end Packet
end SpaceLink
