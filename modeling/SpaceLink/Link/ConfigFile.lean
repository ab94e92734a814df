import SpaceLink.Codec.Value
import SpaceLink.Json.Parser
import SpaceLink.Json.Printer
import SpaceLink.Link.Config

/-! # Configuration files

Configurations as JSON. A field that is missing has its default, if there is one; a field that is not
known does not matter; and a field that comes twice is refused.
-/
namespace SpaceLink

def maxWord (bits : Nat) : Nat := 1 <<< bits - 1

namespace Json

def word16? (json : Json) : Option UInt16 := (json.natural? (maxWord 16)).map UInt16.ofNat
def word32? (json : Json) : Option UInt32 := (json.natural? (maxWord 32)).map UInt32.ofNat
def size? (json : Json) : Option Nat := json.natural? (maxWord 64)

def naturalOrNull (value : Option Nat) : Json := ofOption (value.map .natural)

end Json

namespace Framing

def ofJson? (json : Json) : Option Framing := do
  let [qualifierInMessage, defaultQualifier, crc, maxBodySize] ←
    json.fields? ["qualifier_in_message", "default_qualifier", "crc", "max_body_size"] | none
  return {
    qualifierInMessage := ← Json.fieldOr false Json.bool? qualifierInMessage
    defaultQualifier := ← Json.fieldOr 0 Json.word16? defaultQualifier
    crc := ← Json.fieldOr none (Json.nullable? (Json.choice? Crc.ofName?)) crc
    maxBodySize := ← Json.fieldOr maxDataField Json.size? maxBodySize }

def toJson (f : Framing) : Json := .record [
  ("qualifier_in_message", .bool f.qualifierInMessage),
  ("default_qualifier", .natural f.defaultQualifier.toNat),
  ("crc", .ofOption (f.crc.map fun crc => .text crc.name)),
  ("max_body_size", .natural f.maxBodySize)]

end Framing

namespace PacketLinkConfig

def ofJson? (json : Json) : Option PacketLinkConfig := do
  let [apid, packetType, secondaryHeader, qualifier, framing, maxPacketBody, maxMessageSize,
      writeTimeout, queueCapacity, codec] ←
    json.fields? ["apid", "packet_type", "secondary_header_flag", "apid_qualifier", "framing",
      "max_packet_body", "max_message_size", "write_timeout_ms", "queue_capacity", "codec"] | none
  return {
    apid := ← Json.fieldOr 0 Json.word16? apid
    packetType := ← Json.fieldOr .telemetry (Json.choice? PacketType.ofName?) packetType
    secondaryHeader := ← Json.fieldOr false Json.bool? secondaryHeader
    qualifier := ← Json.fieldOr 0 Json.word16? qualifier
    framing := ← Json.fieldOr {} Framing.ofJson? framing
    maxPacketBody := ← Json.fieldOr Framing.maxDataField Json.size? maxPacketBody
    maxMessageSize := ← Json.fieldOr Desegmenter.defaultMaxMessageSize Json.size? maxMessageSize
    writeTimeout := ← Json.fieldOr none (Json.nullable? Json.size?) writeTimeout
    queueCapacity := ← Json.fieldOr none (Json.nullable? Json.size?) queueCapacity
    codec := ← Json.fieldOr .plain (Json.choice? Codec.ofName?) codec }

def toJson (c : PacketLinkConfig) : Json := .record [
  ("apid", .natural c.apid.toNat),
  ("packet_type", .text c.packetType.name),
  ("secondary_header_flag", .bool c.secondaryHeader),
  ("apid_qualifier", .natural c.qualifier.toNat),
  ("framing", c.framing.toJson),
  ("max_packet_body", .natural c.maxPacketBody),
  ("max_message_size", .natural c.maxMessageSize),
  ("write_timeout_ms", .naturalOrNull c.writeTimeout),
  ("queue_capacity", .naturalOrNull c.queueCapacity),
  ("codec", .text c.codec.name)]

end PacketLinkConfig

namespace Layout

def ofJson? (json : Json) : Option Layout := do
  let fields ← json.fields? ["src_bits", "dst_bits", "type_bits", "remain_bits", "transaction_bits"]
  let [src, dst, type, remain, transaction] ←
    fields.mapM (·.bind fun field => field.natural? (maxWord 32)) | none
  return ⟨src, dst, type, remain, transaction⟩

def toJson (l : Layout) : Json := .record [
  ("src_bits", .natural l.srcBits),
  ("dst_bits", .natural l.dstBits),
  ("type_bits", .natural l.typeBits),
  ("remain_bits", .natural l.remainBits),
  ("transaction_bits", .natural l.transactionBits)]

end Layout

namespace CanConfig

def ofJson? (json : Json) : Option CanConfig := do
  let [layout, maxFrameData] ← json.fields? ["layout", "max_frame_data"] | none
  return {
    layout := ← layout.bind Layout.ofJson?
    maxFrameData := ← Json.fieldOr classicFrameData Json.size? maxFrameData }

def toJson (c : CanConfig) : Json := .record [
  ("layout", c.layout.toJson),
  ("max_frame_data", .natural c.maxFrameData)]

end CanConfig

namespace CanLinkConfig

def ofJson? (json : Json) : Option CanLinkConfig := do
  let [localNode, peerNode, can, resendCache, requestRetransmission, queueCapacity] ←
    json.fields? ["local_node", "peer_node", "cfp", "resend_cache", "request_retransmission",
      "queue_capacity"] | none
  return {
    localNode := ← localNode.bind Json.word32?
    peerNode := ← peerNode.bind Json.word32?
    can := ← can.bind CanConfig.ofJson?
    resendCache := ← Json.fieldOr defaultResendCache Json.size? resendCache
    requestRetransmission := ← Json.fieldOr false Json.bool? requestRetransmission
    queueCapacity := ← Json.fieldOr none (Json.nullable? Json.size?) queueCapacity }

def toJson (c : CanLinkConfig) : Json := .record [
  ("local_node", .natural c.localNode.toNat),
  ("peer_node", .natural c.peerNode.toNat),
  ("cfp", c.can.toJson),
  ("resend_cache", .natural c.resendCache),
  ("request_retransmission", .bool c.requestRetransmission),
  ("queue_capacity", .naturalOrNull c.queueCapacity)]

end CanLinkConfig

/-- Reads the contents of a configuration file; the path is for errors alone. -/
def loadConfig {α : Type} (ofJson? : Json → Option α) (path : String) (contents : Bytes) :
    Except LinkError α := do
  let some text := ofUtf8? contents | throw (.configFile path .notUtf8)
  match (Json.parse? text).bind ofJson? with
  | some config => return config
  | none => throw (.json "the text is no configuration of this kind")

end SpaceLink
