import SpaceLink.CommandLine.Report
import SpaceLink.CommandLine.World
import SpaceLink.Link.PacketListener

/-! # Sending from the command line

One message goes to the listener at an address, and the link is closed.
-/
namespace SpaceLink

structure Sending where
  address : String
  config : PacketLinkConfig
  body : Bytes
  /-- Records of how the message was made. -/
  log : List LogRecord := []

namespace Sending

def prepare (world : World) (options : SendOptions) : Except Failure Sending := do
  let config ← world.linkConfig options.config options.apid
  let payload ← world.payload options.payload
  if options.raw then return ⟨options.address, config, payload, []⟩
  let body ← Payload.encode config.codec payload
  return ⟨options.address, config, body, [Payload.record config.codec payload body]⟩

/-- The socket that the message goes to, if the address names one. -/
def target? (s : Sending) : Option SocketName := do
  let address ← (PacketAddress.parse s.address).toOption
  (SocketName.parse address.authority).toOption

/-- Sends the message over a link of its own. The link is left closed, with what was written. -/
def deliver (network : Network) (s : Sending) : Except Failure PacketLink := do
  let link ← (PacketLink.connect network s.address s.config).mapError (.ofLink "connect failed")
  let (sent, link) := Transport.send link s.body
  sent.mapError (.ofTransport "send failed")
  let (closed, link) := Transport.close link
  closed.mapError (.ofTransport "close failed")
  return link

def record (s : Sending) (link : PacketLink) : LogRecord where
  level := .info
  message := "message sent"
  fields := [("address", .text link.address), ("bytes", .natural s.body.length)]

def run (network : Network) (s : Sending) : Report :=
  match s.deliver network with
  | .ok link => { log := s.log ++ [s.record link] }
  | .error failure => { log := s.log, failure := some failure }

end Sending
end SpaceLink
