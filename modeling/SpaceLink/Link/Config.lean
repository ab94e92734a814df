import SpaceLink.Can.Frame
import SpaceLink.Link.Error
import SpaceLink.Packet.Basic
import SpaceLink.Packet.Desegmenter

/-! # Link configurations -/
namespace SpaceLink

structure PacketLinkConfig where
  apid : UInt16 := 0
  packetType : PacketType := .telemetry
  secondaryHeader : Bool := false
  /-- The qualifier of sent packets, where the framing carries one. -/
  qualifier : UInt16 := 0
  framing : Framing := {}
  /-- Longer bodies are cut. -/
  maxPacketBody : Nat := 65536
  maxMessageSize : Nat := Desegmenter.defaultMaxMessageSize
  /-- In milliseconds. -/
  writeTimeout : Option Nat := none
  /-- How many received messages may wait; any number if none is given. -/
  queueCapacity : Option Nat := none
  codec : Codec := .plain
  deriving DecidableEq

def checkQueue (capacity : Option Nat) : Except LinkError Unit :=
  if capacity = some 0 then .error (.config "queue_capacity must be at least 1") else .ok ()

namespace PacketLinkConfig

def validate (c : PacketLinkConfig) : Except LinkError Unit := do
  if Header.maxApid < c.apid then
    throw (.config s!"apid {c.apid.toNat} exceeds {Header.maxApid.toNat}")
  if c.maxPacketBody = 0 then throw (.config "max_packet_body must be at least 1")
  checkQueue c.queueCapacity

def headerTemplate (c : PacketLinkConfig) : Header :=
  { Header.telemetry c.apid 0 with
    packetType := c.packetType
    secondaryHeader := c.secondaryHeader }

/-- The longest piece that still fits a data field together with its checksum. -/
def effectivePacketBody (c : PacketLinkConfig) : Nat :=
  max 1 (min (min c.maxPacketBody c.framing.effectiveMaxBody)
    (Framing.maxDataField - c.framing.crcLength))

end PacketLinkConfig

structure CanLinkConfig where
  localNode : UInt32
  peerNode : UInt32
  can : CanConfig
  /-- How many sent transactions are kept to be repeated. -/
  resendCache : Nat := 8
  /-- Asks for a transaction again when its frames break off. -/
  requestRetransmission : Bool := false
  queueCapacity : Option Nat := none
  deriving DecidableEq

namespace CanLinkConfig

def defaultResendCache : Nat := 8

def of (localNode peerNode : UInt32) (can : CanConfig) : CanLinkConfig :=
  { localNode := localNode, peerNode := peerNode, can := can }

def checkNode (layout : Layout) (name : String) (node : UInt32) : Except LinkError Unit :=
  if layout.maxNode < node.toNat then
    .error (.config (name ++ s!" {node.toNat} exceeds layout maximum {layout.maxNode}"))
  else .ok ()

def validate (c : CanLinkConfig) : Except LinkError Unit := do
  c.can.validate.mapError .can
  checkNode c.can.layout "local_node" c.localNode
  checkNode c.can.layout "peer_node" c.peerNode
  checkQueue c.queueCapacity

end CanLinkConfig
end SpaceLink
