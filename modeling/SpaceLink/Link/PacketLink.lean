import SpaceLink.Link.Address
import SpaceLink.Link.Config
import SpaceLink.Packet.Segmenter
import SpaceLink.Packet.Wire
import SpaceLink.Transport.Link

/-! # Links over a byte stream

A message is cut into packets, which are written in one go. The listener takes packets from the
stream, passes over those whose checksum is wrong, and hands over what they join to. Any other
failure of reading, and a failed write, close the link; closing shuts the stream once.
-/
namespace SpaceLink

structure PacketLink where
  config : PacketLinkConfig
  address : String
  peer : String
  segmenter : Segmenter
  desegmenter : Desegmenter
  sink : Sink
  shutdowns : Nat := 0
  inbox : Inbox := {}
  closed : Bool := false

namespace PacketLink

def apidProperty : String := "apid"
def qualifierProperty : String := "apid_qualifier"

/-- Runs a link over a stream that is connected already, with the names of its two ends. Room for as
many waiting messages as the configuration allows is taken to be there, however many they are. -/
def ofStream (sink : Sink) (localLabel peerLabel : String) (config : PacketLinkConfig) :
    Except LinkError PacketLink := do
  config.validate
  (checkTimeout config.writeTimeout).mapError .transport
  return {
    config := config
    address := (PacketAddress.mk localLabel (some config.apid)).render
    peer := peerLabel
    segmenter := .of config.headerTemplate config.qualifier config.effectivePacketBody
    desegmenter := .of config.maxMessageSize
    sink := sink }

def describe (link : PacketLink) : String :=
  "SppTransport \x7b address: " ++ Text.quoted link.address ++ s!", closed: {link.closed} \x7d"

/-- Closes the link and shuts the stream, unless that has been done. -/
def shut (link : PacketLink) : PacketLink :=
  if link.closed then link else { link with closed := true, shutdowns := link.shutdowns + 1 }

/-- Closes the link for its owner, who is told what shutting the stream gives. -/
def close (link : PacketLink) : Except TransportError Unit × PacketLink :=
  (if link.closed then .ok () else link.sink.shutResult.mapError .io, link.shut)

/-- Cuts a message into packets, whose counts are taken here. -/
def cut (link : PacketLink) (body : Bytes) : List Packet × PacketLink :=
  let (packets, segmenter) := link.segmenter.segment body
  (packets, { link with segmenter := segmenter })

/-- Writes the packets of one message. A failure closes the link, and is none of the sender's if the
link has been closed meanwhile. -/
def write (link : PacketLink) (packets : List Packet) : Except LinkError Unit × PacketLink :=
  match Packet.writeAll link.config.framing packets link.sink with
  | (.ok (), sink) => (.ok (), { link with sink := sink })
  | (.error error, sink) =>
    (if link.closed then .ok () else .error (.packet error), shut { link with sink := sink })

/-- Sends one message. A closed link takes it and does nothing. -/
def send (link : PacketLink) (body : Bytes) : Except LinkError Unit × PacketLink :=
  if link.closed then (.ok (), link)
  else
    let (packets, link) := link.cut body
    link.write packets

def messageOf (peer : String) (p : Packet) : Message :=
  ((Message.of (PacketAddress.mk peer (some p.header.apid)).render p.body).withProperty
    apidProperty s!"{p.header.apid.toNat}").withProperty qualifierProperty s!"{p.qualifier.toNat}"

/-- A message has the bytes of the packet, comes from its number at the peer, and shows both of the
packet's numbers. -/
theorem messageOf_eq (peer : String) (p : Packet) :
    messageOf peer p =
      let source := (PacketAddress.mk peer (some p.header.apid)).render
      { source := source
        body := p.body
        properties := [("apid", s!"{p.header.apid.toNat}"),
          ("apid_qualifier", s!"{p.qualifier.toNat}"), ("source", source)] } := rfl

/-- Hands over what a packet completes; a broken message is forgotten. -/
def acceptPacket (link : PacketLink) (p : Packet) : PacketLink :=
  let (joined, desegmenter) := link.desegmenter.accept p
  let link := { link with desegmenter := desegmenter }
  match joined with
  | .ok (some message) => { link with inbox := link.inbox.push (messageOf link.peer message) }
  | .ok none | .error _ => link

def endListening (link : PacketLink) : PacketLink :=
  let link := link.shut
  { link with inbox := link.inbox.finish }

/-- Takes one packet from the stream. Without a rest of the stream the listener has stopped. -/
def hear (link : PacketLink) (source : Source) : PacketLink × Option Source :=
  match Packet.read link.config.framing source with
  | (.ok packet, rest) => (link.acceptPacket packet, some rest)
  | (.error (.crcMismatch _ _), rest) => (link, some rest)
  | (.error _, _) => (link.endListening, none)

def hearUpTo : Nat → PacketLink → Source → PacketLink
  | 0, link, _ => link.endListening
  | steps + 1, link, source =>
    match link.hear source with
    | (link, none) => link
    | (link, some rest) => hearUpTo steps link rest

/-- Listens until the stream ends or fails. Each packet takes a byte at least, so there are no more
packets than bytes. -/
def hearAll (link : PacketLink) (source : Source) : PacketLink :=
  hearUpTo (source.contents.length + 1) link source

instance : Transport PacketLink where
  address := address
  send link body :=
    let (result, link) := link.send body
    (result.mapError LinkError.toTransport, link)
  receive? link :=
    let (result, inbox) := link.inbox.receive?
    (result, { link with inbox := inbox })
  supports _ _ := true
  honours _ _ := true
  close := close
  isClosed link := link.closed

end PacketLink
end SpaceLink
