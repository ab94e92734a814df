import SpaceLink.Can.Error
import SpaceLink.Codec.Basic
import SpaceLink.Packet.Error
import SpaceLink.Text.Quoted

/-! # Link errors -/
namespace SpaceLink

inductive LinkError where
  | transport (error : TransportError)
  | packet (error : PacketError)
  | can (error : CanError)
  | codec (error : CodecError)
  | invalidAddress (address reason : String)
  | config (reason : String)
  | configFile (path : String) (source : IoError)
  | json (reason : String)
  | spawn (source : IoError)
  deriving DecidableEq

namespace LinkError

def message : LinkError → String
  | transport error => "transport error: " ++ error.message
  | packet error => "space packet error: " ++ error.message
  | can error => "CFP error: " ++ error.message
  | codec error => "codec error: " ++ error.message
  | invalidAddress address reason =>
    "invalid address " ++ Text.quoted address ++ ": " ++ reason
  | config reason => "invalid link configuration: " ++ reason
  | configFile path source => "failed to read " ++ path ++ ": " ++ source.text
  | json reason => "json error: " ++ reason
  | spawn source => "failed to spawn listener thread: " ++ source.text

/-- What a link reports to those who know it only as a transport: a transport error as it is, and
anything else as a failure of the layer that it came from. -/
def toTransport : LinkError → TransportError
  | transport error => error
  | packet (.transport error) => error
  | can (.transport error) => error
  | packet error => .link "spp" error.message
  | can error => .link "can" error.message
  | other => .link "malwire" other.message

end LinkError
end SpaceLink
